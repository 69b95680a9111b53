import Fibers.Proofs.Closures.Codes
import Fibers.Proofs.Forest

/-!
# Each closure is consumed once

Everything about the closures of a run is put together here: each of them is called or destroyed at
most once, on the occasions that there are for that, and what it had captured goes into the frame of
its call, or is dropped entry by entry.  If a run ends with nothing left, all closures are used up.
-/

namespace Fibers

namespace State

variable {s : State} {lost : List ContextId}

/--
What a state does with closures, and what has become of those of the states before it, the latest first.
-/
structure UsesClosures (s : State) (past : List State) : Prop where
  /-- A closure that is made is handed to a keeper, or destroyed if there is none. -/
  made : forall op captures moves, s.operation? = some op -> op.captures? = some (captures, moves) ->
    exists f, s.closure? = some f ∧ f.Captures captures moves ∧
      ((exists k, s.Gives k f) ∨ s.Discards f)
  /-- A closure that was handed to a keeper has been called or destroyed at most once since. -/
  once : forall later t before k f, past = later ++ t :: before -> t.Gives k f -> s.Fate k f later
  /-- Nothing else has been called or destroyed. -/
  closures : forall k, handedTo k past = (s.kept k).toList ++ usedBy k past
  /-- A fiber has one body at most, which is called or destroyed at most once. -/
  bodies : forall c, (handedTo (.fiber c) past).length ≤ 1 ∧ (usedBy (.fiber c) past).length ≤ 1
  /-- Code runs, closures are made, and questions are asked, without a closure being used. -/
  occasions : forall k f, s.Uses k f ->
    exists source signal, s.control = .landed source signal ∧ signal.inEarnest = true
  /-- What a closure that is called has captured goes into the frame of the call. -/
  calls : forall k f, s.Invokes k f -> exists s', s.step = .active s' ∧ s'.running = s.running ∧
    s'.control = .run ∧ s'.kept k = none ∧ s.Runs f s' k
  /-- Code comes on a stack only where a closure is called, or a guard is dropped. -/
  begins : forall s' c, s.step = .active s' -> s'.codes c <:+ s.codes c ∨
    c = s.running ∧ exists code, s.Begins s' code ∧ s'.codes c = code :: s.codes c
  /-- The code of closures that is on a stack was called there, each time anew. -/
  called : forall c, (s.callees c).Sublist (calledOn c past)
  /-- A body is called when control first comes to its fiber in earnest, on no function's stack. -/
  idle : forall source signal record, s.control = .landed source signal ->
    s.stack = [.base (.idle record)] -> exists f, record.body = some f ∧
      s.kept (.fiber s.running) = some f ∧ s.Awakens source f signal
  /-- A function on top hands control on below once it is over. -/
  finishes : forall g source there, s.Finishes g source there -> exists s' next message,
    s.step = .active s' ∧ s'.running = s.running ∧ s'.stack = there ∧
      s'.control = .landed next (.message message) ∧ (Signal.message message).inEarnest = true
  /-- To drop a handle is not to call what its fiber has. -/
  evicts : forall name fiber rest cause below, s.control = .run ->
    s.stack = .discarding (.slot name (.live fiber) :: rest) cause :: below ->
    exists s', s.step = .active s' ∧ s'.running = fiber ∧
      s'.control = .landed s.running (.message .eviction)
  /-- A function that goes along with a switch is called if the switch is made, and only then. -/
  sends : forall switch spec a below g handle scene,
    s.operation? = some (switch.operation (some spec)) -> s.stack = .code a :: below ->
    ((Scene.mk s.world a.advance).make (some spec)).1 = some g ->
    ((Scene.mk s.world a.advance).make (some spec)).2.take switch.slot = (handle, scene) ->
    s.SendsAlong switch g handle
  /-- A switch that is refused calls nothing: it asks, is told, and is over. -/
  refuses : forall switch function a below onTop c scene i t,
    s.Attempts switch function a below onTop c scene ->
    (s.bindingOf c).allows (s.world.hosts.resolve switch.host) = false -> i ≤ 3 ->
    Config.after i (.active s) = .active t -> forall k f, ¬ t.Invokes k f
  /-- What a closure that is destroyed has captured is dropped, the last captured entry first. -/
  remains : forall later t before f, past = later ++ t :: before -> t.Discards f ->
    Remains s t.running f.captured later
  /-- No handle is anywhere twice, in a closure or elsewhere. -/
  handles : forall need c, s.holdings.count (.token need c) ≤ 1
  /-- A guard is held, in a closure or elsewhere, until it is dropped. -/
  guards : forall label,
    (madeIn past).count label = (droppedIn past).count label + s.holdings.count (.guard label)

/-- All closures of a run are used up, and what they had captured is gone. -/
structure UsedUpClosures (s : State) (past : List State) : Prop where
  /-- Each closure that was handed to a keeper has been called or destroyed, and only once. -/
  once : forall later t before k f, past = later ++ t :: before -> t.Gives k f ->
    exists after u during, later = after ++ u :: during ∧ u.Uses k f ∧ usedBy k during = [] ∧
      handedTo k after = usedBy k after
  /-- Of those that were destroyed all that had been captured has been dropped, the last first. -/
  dropped : forall later t before f, past = later ++ t :: before -> t.Discards f ->
    exists after u during, s :: later = after ++ u :: during ∧ u.running = t.running ∧
      u.control = .run ∧ f.captured = (droppedBy t.running during).reverse
  handles : s.holdings = []
  guards : (droppedIn past).Perm (madeIn past)

/-- Where nothing is held, nobody but the running context is there. -/
theorem Sound.parked?_eq_none {c : ContextId} (h : s.Sound []) (hnothing : s.holdings = [])
    (hc : c ≠ s.running) : s.parked? c = none := by
  cases hparked : s.parked? c with
  | none => rfl
  | some stack =>
      cases hneed : needOf stack with
      | none => exact absurd hneed (h.parked c stack hc hparked).2
      | some need =>
          have hcount := h.count_token hparked need
          rw [hnothing, hneed, if_pos rfl] at hcount
          cases hcount

/-- The run is over in this state, and was not aborted. -/
def Concludes (s : State) : Prop :=
  s.step = .halted .finished s.world ∨ exists payload, s.step = .halted (.panicked payload) s.world

theorem DrainedDry.concludes (hdry : s.DrainedDry) : s.Concludes := by
  rcases hdry with ⟨hrun, rounds, panic, below, hstack⟩
  have hhalts : s.step = .halted (panic.elim .finished .panicked) s.world := by
    simp only [step, hrun, run, hstack]
    cases rounds <;> rfl
  cases panic with
  | none => exact Or.inl hhalts
  | some payload => exact Or.inr ⟨payload, hhalts⟩

/-- At the end of a run that has drained the shared slots, nobody has a closure. -/
theorem DrainedDry.kept (h : s.Sound []) (hdry : s.DrainedDry) (hnothing : s.holdings = [])
    (k : Keeper) : s.kept k = none := by
  rcases hdry with ⟨hrun, rounds, panic, below, hstack⟩
  refine kept_eq_none (fun c hc => h.parked?_eq_none hnothing hc) ?_ ?_ k
  · have hstands := h.stands
    simp only [Stands, hrun, hstack] at hstands
    rcases hstands with ⟨⟨hnative, rfl⟩, -⟩
    simp only [body?, hrun, hstack]
    rfl
  · rw [hstack]
    rfl

/-- Nor is anybody still dropping something. -/
theorem DrainedDry.not_drops {c : ContextId} {cause : Option Unwind} {low : List Frame}
    {es : List Entry} (h : s.Sound []) (hdry : s.DrainedDry) (hnothing : s.holdings = []) :
    ¬ s.Drops c cause low es := by
  intro hdrops
  rcases hdry with ⟨hrun, rounds, panic, below, hstack⟩
  by_cases hc : c = s.running
  · rw [hc] at hdrops
    have hnow := hdrops.stackOf
    rw [stackOf_running, hstack] at hnow
    rcases hnow with heq | heq <;> cases heq
  · have hnow := hdrops.stackOf
    rw [stackOf_of_ne hc, h.parked?_eq_none hnothing hc] at hnow
    rcases hnow with heq | heq <;> cases heq

end State

variable {p : Program} {past : List State} {s : State}

theorem Program.Reaches.usesClosures (h : p.Reaches past s) : s.UsesClosures past where
  made op captures moves := State.makes
  once later t before k f := h.fate
  closures := h.closures
  bodies c := ⟨h.one_body c, Nat.le_trans (h.length_usedBy_le _) (h.one_body c)⟩
  occasions k f := State.Uses.occasion
  calls := by
    intro k f hcalls
    rcases h.sound.runs_of_calls hcalls with ⟨s', hstep, hrunning, hrun, hruns⟩
    exact ⟨s', hstep, hrunning, hrun, (h.sound.kept_of_calls hstep hcalls).2, hruns⟩
  begins s' c hstep := h.sound.codes_step hstep c
  called := h.called
  idle source signal record := h.sound.awakens
  finishes g source there := State.Finishes.lands
  evicts name fiber rest cause below := h.sound.evicts
  sends switch spec a below g handle scene := h.sound.sendsAlong
  refuses switch function a below onTop c scene i t hattempts hrefused hi hafter k f :=
    hattempts.calls_nothing h.sound hrefused hi hafter
  remains later t before f := h.remains
  handles := h.sound.count_le_one
  guards := h.audited.held

theorem Program.Reaches.usedUpClosures (h : p.Reaches past s) (hlost : lostIn past = [])
    (hdry : s.DrainedDry) : s.UsedUpClosures past := by
  have hsound := h.sound
  rw [hlost] at hsound
  have hnothing := (hsound.holdings_of_drainedDry (h.allReached_of_lostIn hlost) h.tidy hdry).1
  constructor
  · intro later t before k f hrun hgives
    cases h.fate hrun hgives with
    | kept hkept => cases hkept.symm.trans (hdry.kept hsound hnothing k)
    | used hsince huses hunused hledger =>
        rw [hdry.kept hsound hnothing k] at hledger
        exact ⟨_, _, _, hsince, huses, hunused, hledger⟩
  · intro later t before f hrun hdiscards
    cases h.remains hrun hdiscards with
    | partly hdrops => exact absurd hdrops (hdry.not_drops hsound hnothing)
    | wholly hsince hrunning hcontrol hcaptured => exact ⟨_, _, _, hsince, hrunning, hcontrol, hcaptured⟩
  · exact hnothing
  · rw [List.perm_iff_count]
    intro label
    rw [h.audited.held, hnothing]
    rfl

/--
Closures are called at most once, and are consumed once.  In all states of a run, a closure that was
made has been handed to one keeper or destroyed, and the keeper has used it at most once.  Its code
comes on a stack where it is called, and in no other way.  If no forced unwind was discarded and the
run ends with empty shared slots, each closure has been used, and what was captured has been dropped.
-/
theorem closures_used_once (h : p.Reaches past s) :
    s.UsesClosures past ∧
      (lostIn past = [] -> s.DrainedDry -> s.Concludes ∧ s.UsedUpClosures past) :=
  ⟨h.usesClosures, fun hlost hdry => ⟨hdry.concludes, h.usedUpClosures hlost hdry⟩⟩

set_option maxRecDepth 10000 in
/-- One body of a small program is called, another one is destroyed, and none is left in the end. -/
theorem closures_used_once_of_nestedFibers :
    (exists past s f, Program.nestedFibers.Reaches past s ∧ f.label = "F" ∧
      s.Invokes (.fiber 2) f) ∧
    (exists past s f, Program.nestedFibers.Reaches past s ∧ f.label = "G" ∧
      s.Destroys (.fiber 1) f) ∧
    exists past s, Program.nestedFibers.Reaches past s ∧ s.UsesClosures past ∧ s.Concludes ∧
      s.UsedUpClosures past := by
  refine ⟨?_, ?_, ?_⟩
  · have hafter : exists s record f, Config.after 11 (.active Program.nestedFibers.start) = .active s ∧
        s.running = 2 ∧ s.control = .landed mainContext (.message .handover) ∧
          s.stack = [.base (.idle record)] ∧ record.body = some f ∧ f.label = "F" :=
      ⟨_, _, _, rfl, rfl, rfl, rfl, rfl, rfl⟩
    rcases hafter with ⟨s, record, f, hs, hrunning, hcontrol, hstack, hbody, hlabel⟩
    rcases Program.after_eq_active.mp hs with ⟨past, -, hreach⟩
    have hcalls : s.Invokes (.fiber s.running) f := .body hcontrol rfl hstack hbody
    exact ⟨past, s, f, hreach, hlabel, hrunning ▸ hcalls⟩
  · have hafter : exists s record f, Config.after 28 (.active Program.nestedFibers.start) = .active s ∧
        s.running = 1 ∧ s.control = .landed 2 (.message .eviction) ∧
          s.stack = [.base (.idle record)] ∧ record.body = some f ∧ f.label = "G" :=
      ⟨_, _, _, rfl, rfl, rfl, rfl, rfl, rfl⟩
    rcases hafter with ⟨s, record, f, hs, hrunning, hcontrol, hstack, hbody, hlabel⟩
    rcases Program.after_eq_active.mp hs with ⟨past, -, hreach⟩
    have hdestroys : s.Destroys (.fiber s.running) f := .evicted hcontrol hstack hbody
    exact ⟨past, s, f, hreach, hlabel, hrunning ▸ hdestroys⟩
  · have hafter : exists s, Config.after 46 (.active Program.nestedFibers.start) = .active s ∧
        s.control = .run ∧ s.world.globals = [] ∧ s.stack = [.root (.draining 100 [] true none)] :=
      ⟨_, rfl, rfl, rfl, rfl⟩
    rcases hafter with ⟨s, hs, hrun, hglobals, hstack⟩
    rcases Program.after_eq_active.mp hs with ⟨past, -, hreach⟩
    have hround : s.step = .active { s with stack := [.root (.draining 99 [] false none)] } := by
      simp [State.step, hrun, State.run, hstack, State.runRoot, State.go, World.globalNames,
        hglobals]
    have hlast := hreach.step hround
    have hdry : State.DrainedDry { s with stack := [.root (.draining 99 [] false none)] } :=
      ⟨hrun, 99, none, [], rfl⟩
    rcases closures_used_once hlast with ⟨huses, hend⟩
    exact ⟨_, _, hlast, huses, hend (hlast.lostIn_eq_nil rfl) hdry⟩

end Fibers
