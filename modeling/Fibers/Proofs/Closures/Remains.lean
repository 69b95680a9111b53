import Fibers.Proofs.Closures.Run

/-!
# What is left of closures that are destroyed

A closure that is destroyed, or that nobody gets when it is made, leaves what it has captured.  Its
entries are dropped one after another, the last captured one first, by the context that destroyed it.
That takes as long as their own drops do, and is over before the context does anything else.
-/

namespace Fibers

/-! ## What is captured -/

/-- The guards that an operation makes for a closure, and the slots that it takes for it. -/
def Op.captures? : Op -> Option (List String × List SlotName)
  | .create _ captures moves _ | .resumeWith _ captures moves _ => some (captures, moves)
  | _ => none

/-- A closure has captured such guards and what was in such slots, and has the last one first. -/
def Closure.Captures (f : Closure) (captures : List String) (moves : List SlotName) : Prop :=
  exists moved : List (SlotName × Handle), moved.map Prod.fst = moves ∧
    f.captured = (captures.map (Entry.guard · []) ++
      moved.map fun (name, h) => Entry.slot name h).reverse

theorem Scene.captures_capture (s : Scene) (label : String) (argument : SlotName)
    (captures : List String) (moves : List SlotName) (code : List Op) :
    (s.capture label argument captures moves code).1.Captures captures moves :=
  ⟨_, Scene.names_takeAll _ moves, rfl⟩

namespace State

variable {s s' : State} {f : Closure}

/-! ## One step -/

/-- The entry that the next step drops. -/
def dropping? (s : State) : Option Entry :=
  match s.control, s.stack with
  | .run, .discarding (e :: _) _ :: _ => some e
  | _, _ => none

/-- The next step destroys a closure: one that is kept, or one that nobody gets when it is made. -/
def Discards (s : State) (f : Closure) : Prop :=
  (exists k, s.Destroys k f) ∨ s.closure? = some f ∧ s.keeper? = none

/-- A closure that is made is handed to a keeper or destroyed. -/
theorem gives_or_discards (h : s.closure? = some f) : (exists k, s.Gives k f) ∨ s.Discards f := by
  cases hkeeper : s.keeper? with
  | none => exact Or.inr (Or.inr ⟨h, hkeeper⟩)
  | some k =>
      have hgiven : s.given? = some (k, f) := by simp only [given?, hkeeper, h]
      exact Or.inl ⟨k, .of_given? hgiven⟩

theorem makes {op : Op} {captures : List String} {moves : List SlotName}
    (hop : s.operation? = some op) (hcaptures : op.captures? = some (captures, moves)) :
    exists f, s.closure? = some f ∧ f.Captures captures moves ∧
      ((exists k, s.Gives k f) ∨ s.Discards f) := by
  rcases operation?_eq_some hop with ⟨a, below, b, outer, rest, -, hstack, -⟩
  have hmade : exists f, s.closure? = some f ∧ f.Captures captures moves := by
    cases op with
    | create spec captures' moves' body =>
        cases hcaptures
        simp only [closure?, hop, hstack]
        exact ⟨_, rfl, Scene.captures_capture ..⟩
    | resumeWith switch captures' moves' onTop =>
        cases hcaptures
        simp only [closure?, hop, hstack]
        exact ⟨_, rfl, Scene.captures_capture ..⟩
    | _ => cases hcaptures
  rcases hmade with ⟨f, hclosure, hcaptured⟩
  exact ⟨f, hclosure, hcaptured, gives_or_discards hclosure⟩

/-- A context is about to drop some entries one by one, or goes on if there are none. -/
def TurnsTo (s : State) (c : ContextId) (es : List Entry) : Prop :=
  s.running = c ∧ s.control = .run ∧
    (es = [] ∨ exists cause low, s.stack = .discarding es cause :: low)

theorem turnsTo_dropFirst (s : State) (w : World) (es : List Entry) (below : List Frame) :
    TurnsTo { s with world := w, stack := dropFirst es below, control := .run } s.running es := by
  refine ⟨rfl, rfl, ?_⟩
  cases es with
  | nil => exact Or.inl rfl
  | cons e rest => exact Or.inr ⟨none, below, rfl⟩

/-- What has been captured is dropped at once. -/
theorem Discards.turnsTo (h : s.Discards f) :
    exists s', s.step = .active s' ∧ s'.TurnsTo s.running f.captured := by
  rcases h with ⟨k, hdestroys⟩ | ⟨hclosure, hkeeper⟩
  · cases hdestroys with
    | refused hcontrol hstack hrefused =>
        exact ⟨_, step_of_refused hcontrol hstack hrefused, turnsTo_dropFirst ..⟩
    | evicted hcontrol hstack hbody =>
        exact ⟨_, step_of_idle hcontrol hstack hbody, turnsTo_dropFirst ..⟩
  · unfold closure? at hclosure
    unfold keeper? at hkeeper
    split at hclosure
    · rename_i spec captures moves body a below hop hstack
      simp only [hop, Option.map_eq_none_iff] at hkeeper
      cases hclosure
      rcases step_create hop hstack with ⟨g, scene, hcapture, hcreates⟩
      rw [hkeeper] at hcreates
      rcases hcreates with ⟨w, cause, hmove⟩
      rw [hcapture]
      exact ⟨_, hmove, turnsTo_dropFirst ..⟩
    · rename_i switch captures moves onTop a below hop hstack
      simp only [hop, hstack] at hkeeper
      split at hkeeper
      · cases hkeeper
      · rename_i hempty
        have hmakes : s.operation? = some (switch.operation (some ⟨captures, moves, onTop⟩)) := hop
        rcases panics_of_empty hmakes hstack hclosure (Prod.ext hempty rfl) with ⟨verb, hmove⟩
        exact ⟨_, hmove, rfl, rfl, Or.inr ⟨_, _, rfl⟩⟩
    · cases hclosure

end State

/-! ## All steps -/

/-- The entries that a context has dropped in the given states, the latest first. -/
def droppedBy (c : ContextId) (past : List State) : List Entry :=
  past.filterMap fun t => if t.running = c then t.dropping? else none

/-- What has become of entries that a context was to drop, in the states since, the latest first. -/
inductive Remains (s : State) (c : ContextId) (es : List Entry) (since : List State) : Prop where
  /-- These have been dropped one after another, and the context still has to drop the rest. -/
  | partly {cause : Option Unwind} {low : List Frame} {rest : List Entry} :
      s.Drops c cause low rest -> es = (droppedBy c since).reverse ++ rest -> Remains s c es since
  /-- All have been dropped one after another, and the context goes on with something else. -/
  | wholly {after during : List State} {t : State} :
      s :: since = after ++ t :: during -> t.running = c -> t.control = .run ->
        es = (droppedBy c during).reverse -> Remains s c es since

namespace State

variable {s s' : State} {lost : List ContextId} {c : ContextId} {es : List Entry}
  {since : List State}

/-- A context drops an entry itself, and none while it waits for a fiber to be gone. -/
theorem Drops.dropping? {cause : Option Unwind} {low : List Frame}
    (h : s.Drops c cause low es) (hwaits : ¬ s.AtDrop c cause low es) :
    (if s.running = c then s.dropping? else none) = none := by
  cases h with
  | going hat => exact absurd hat hwaits
  | waiting hstack =>
      split
      · rename_i hc
        rw [<- hc, stackOf_running, Option.some.injEq] at hstack
        unfold State.dropping?
        rw [hstack]
        split
        · rename_i heq
          cases heq
        · rfl
      · rfl

theorem Sound.remains_step (h : s.Sound lost) (hstep : s.step = .active s')
    (hplain : es.all Entry.isPlain = true) (hremains : Remains s c es since) :
    Remains s' c es (s :: since) := by
  cases hremains with
  | wholly hsince hc hrun hes =>
      rw [hsince]
      exact .wholly (List.cons_append ..).symm hc hrun hes
  | partly hdrops hes =>
      rename_i cause low rest
      by_cases hover : s.AtDrop c cause low []
      · rw [hdrops.eq_nil hover, List.append_nil] at hes
        have hsince : s' :: s :: since = [s'] ++ s :: since := rfl
        exact .wholly hsince hover.running hover.control hes
      · have hleft : rest.all Entry.isPlain = true := by
          rw [hes, List.all_append, Bool.and_eq_true] at hplain
          exact hplain.2
        rcases h.drops_step hleft hdrops hover hstep with
          ⟨hstill, hwaits⟩ | ⟨e, rest, rfl, hat, hless⟩
        · refine .partly hstill ?_
          rw [droppedBy, List.filterMap_cons, hdrops.dropping? hwaits]
          exact hes
        · refine .partly hless ?_
          have hdropped : (if s.running = c then s.dropping? else none) = some e := by
            rw [if_pos hat.running]
            simp only [dropping?, hat.control, hat.stack]
          rw [droppedBy, List.filterMap_cons, hdropped, List.reverse_cons, List.append_assoc]
          exact hes

end State

namespace Program.Reaches

variable {p : Program} {past later before : List State} {s t : State} {f : Closure}

theorem plain_of_discards (h : p.Reaches past s) (hdiscards : s.Discards f) :
    f.captured.all Entry.isPlain = true := by
  rcases hdiscards with ⟨k, hdestroys⟩ | ⟨hclosure, -⟩
  · have hturns := State.Discards.turnsTo (Or.inl ⟨k, hdestroys⟩)
    rcases hturns with ⟨s', hstep, -⟩
    exact h.plain_of_kept (h.sound.kept_of_destroys hstep hdestroys).1
  · unfold State.closure? at hclosure
    split at hclosure
    · cases hclosure
      exact Scene.capture_plain ..
    · rename_i switch captures moves onTop a below hop hstack
      have hplain := (Scene.mk s.world a.advance).plain_make (some ⟨captures, moves, onTop⟩)
      rwa [hclosure] at hplain
    · cases hclosure

/-- What is left of a closure is dropped entry by entry, each of them once. -/
theorem remains (h : p.Reaches past s) (hrun : past = later ++ t :: before)
    (hdiscards : t.Discards f) : Remains s t.running f.captured later := by
  induction later generalizing past s with
  | nil =>
      subst hrun
      rcases h.step_of_adjacent with ⟨hbefore, hstep⟩
      rcases hdiscards.turnsTo with ⟨s', hstep', hrunning, hcontrol, hnext⟩
      cases hstep'.symm.trans hstep
      rcases hnext with hnone | ⟨cause, low, hstack⟩
      · exact .wholly (List.nil_append _).symm hrunning hcontrol hnone
      · exact .partly (.going ⟨hrunning, hcontrol, hstack⟩) rfl
  | cons u later ih =>
      subst hrun
      rcases h.step_of_adjacent with ⟨hbefore, hstep⟩
      have hplain : f.captured.all Entry.isPlain = true :=
        (hbefore.earlier (List.cons_append ..).symm).plain_of_discards hdiscards
      exact hbefore.sound.remains_step hstep hplain (ih hbefore rfl)

end Program.Reaches

end Fibers
