import Fibers.Proofs.Abandon.Run
import Fibers.Proofs.Generator.Rounds
import Fibers.Proofs.Kinds

/-!
# A whole run of a generator

Before its rounds the main program makes the generator and asks about it, and after them it asks
again and drops the handle, which unwinds the generator wherever it is parked.  So a run comes to its
end, and its log is known for every number of rounds.
-/

namespace Fibers

open Relation (ReflTransGen)

namespace Generator

section Turns

variable {p : Program} {past : List State} {s s' : State} {lost : List ContextId} {lease : Lease}
  {fiber : ContextId} {done : Nat} {told : World} {host : Host} {there : List Frame}
  {code : List Op}

/-! ## Questions -/

theorem MainRuns.bindingOf_eq {a : Activation} (h : MainRuns s a fiber lease done told) :
    s.bindingOf fiber = bindingAfter s.world.hosts.self done := by
  rcases h.parked with ⟨there, hthere, hparked⟩
  rw [State.bindingOf, hthere, Option.getD_some, hparked.bindingIn_eq]

theorem MainRuns.asked {question : Question}
    (h : MainRuns s (slot.holder "main" .program (.ask question slot :: code) (.live fiber)) fiber
      lease done told) :
    s.operation? = some (.ask question slot) ∧ s.handleIn slot = .live fiber := by
  refine ⟨State.operation?_of_onward h.control h.stack rfl rfl, ?_⟩
  simp only [State.handleIn, h.stack]
  rfl

/-- The main program asks, and goes on with its code when the answer is noted. -/
theorem MainRuns.asks {question : Question}
    (h : MainRuns s (slot.holder "main" .program (.ask question slot :: code) (.live fiber)) fiber
      lease done told) (hsound : s.Sound lost) :
    exists t, (Config.active s).ComesTo (.active t) ∧
      MainRuns t (slot.holder "main" .program code (.live fiber)) fiber lease done
        (told.note "main" (s.answerTo question fiber)) := by
  have hasked : s.asked question fiber =
      { s with
        world := (s.world.trace (.probed fiber question.query)).note "main"
          (s.answerTo question fiber)
        stack := [.code (slot.holder "main" .program code (.live fiber)), .root .program] } := by
    simp only [State.asked, h.stack]
    rfl
  refine ⟨_, ⟨5, (hsound.bounce h.asked.1 h.asked.2).trans (congrArg _ hasked)⟩, ?_⟩
  exact ⟨h.running, h.control, rfl, h.globals, h.parked, (h.tells.trace _).note _ _⟩

/-- A generator may be resumed from every thread, since it lives on a stack of its own. -/
theorem MainRuns.answer_anywhere
    (h : MainRuns s (slot.holder "main" .program (.ask .canResumeAnywhere slot :: code)
      (.live fiber)) fiber lease done told) (hsound : s.Sound lost) :
    s.answerTo .canResumeAnywhere fiber = .canResumeAnywhere true := by
  rw [(hsound.asks_kind h.asked.1 h.asked.2).2.2, homeOf, if_neg (h.ne_main hsound)]
  rfl

/-! ## The beginning -/

/-- The main program from the making of the generator on. -/
def asksFirst (n : Nat) : List Op :=
  .display slot :: .ask (.canResume none) slot :: .ask .canResumeAnywhere slot ::
    .rounds n askOps :: closing

/-- When the generator has been made, it is parked, and the main program has its handle. -/
theorem mainRuns_start (n : Nat) :
    exists fiber lease t, lease.owner = none ∧
      (Config.active (program n).start).ComesTo (.active t) ∧
      MainRuns t (slot.holder "main" .program (asksFirst n) (.live fiber)) fiber lease 0
        (program n).start.world := by
  have hsound := State.sound_start (program n)
  have htold : (program n).start.world.Tells (program n).start.world := ⟨rfl, rfl, rfl, rfl, rfl⟩
  have hroom : SystemStacks.mappedSize ⟨64 * 1024, true⟩ ≤ systemMemory := by decide
  rcases State.supply_system hroom .above (program n).start.world.memory
    (program n).start.world.registry.ranges with ⟨placement, hsupply, hplaced⟩
  rcases State.step_of_create (s := (program n).start) rfl rfl rfl hsupply hplaced htold with
    ⟨w, htells, hkept, hmove⟩
  rcases hsound.makes_ready hmove hkept htells with
    ⟨t, hcomes, hrunning, hrun, hstack, hglobals, hparked, htells'⟩
  exact ⟨_, _, t, rfl, hcomes, hrunning, hrun, hstack, hglobals, ⟨_, hparked, .new⟩, htells'⟩

/-- What is told before the first round. -/
def tellFirst (fiber : ContextId) (w : World) : World :=
  let w := w.note "main" (.display (.live fiber))
  let w := w.note "main" (.canResume true)
  w.note "main" (.canResumeAnywhere true)

/-- The main program asks about the new generator, and enters its loop. -/
theorem MainRuns.enters {n : Nat}
    (h : MainRuns s (slot.holder "main" .program (asksFirst n) (.live fiber)) fiber lease 0 told)
    (hreach : p.Reaches past s) :
    exists t, (Config.active s).ComesTo (.active t) ∧
      MainRuns t (asking n [] (.live fiber)) fiber lease 0 (tellFirst fiber told) := by
  let shown : State :=
    { s with
      world := s.world.note "main" (.display (.live fiber))
      stack :=
        [.code (slot.holder "main" .program (asksFirst n).tail (.live fiber)), .root .program]
      control := .run }
  have hshows : (Config.active s).ComesTo (.active shown) := by
    rw [active_eq_go h.control h.stack]
    exact ⟨1, rfl⟩
  have hshown : MainRuns shown _ fiber lease 0 (told.note "main" (.display (.live fiber))) :=
    ⟨h.running, rfl, rfl, h.globals, h.parked, h.tells.note _ _⟩
  rcases hreach.comesTo hshows with ⟨past₁, hreach₁⟩
  have hallowed : shown.answerTo (.canResume none) fiber = .canResume true := by
    rw [State.answerTo, hshown.bindingOf_eq]
    exact congrArg Note.canResume (bindingAfter_allows _ 0)
  rcases hshown.asks hreach₁.sound with ⟨s₂, hcomes₂, hturn₂⟩
  rw [hallowed] at hturn₂
  rcases hreach₁.comesTo hcomes₂ with ⟨past₂, hreach₂⟩
  have hanywhere := hturn₂.answer_anywhere hreach₂.sound
  rcases hturn₂.asks hreach₂.sound with ⟨s₃, hcomes₃, hturn₃⟩
  rw [hanywhere] at hturn₃
  have hloops : (Config.active s₃).ComesTo
      (s₃.go s₃.world [.code (asking n [] (.live fiber)), .root .program]) := by
    rw [active_eq_go hturn₃.control hturn₃.stack]
    exact ⟨1, rfl⟩
  exact ⟨_, hshows.trans (hcomes₂.trans (hcomes₃.trans hloops)), hturn₃.running, rfl, rfl,
    hturn₃.globals, hturn₃.parked, hturn₃.tells⟩

/-! ## The end -/

/-- A parked generator owns nothing, and lets every unwind pass in silence. -/
theorem Parked.mild (h : Parked lease host done there) (howner : lease.owner = none)
    (abandon : ContextId -> List LogEntry) (k : StackKind) :
    stackHoldings there = [] ∧ there.all Frame.isMild = true ∧
      unwindLog abandon there ++ returnLog k there = [] := by
  have hreturned : lease.returnLog k = [] := by
    rw [Lease.returnLog, howner]
    rfl
  cases h with
  | new => exact ⟨rfl, rfl, List.append_nil _ |>.trans hreturned⟩
  | between before left hleft => exact ⟨rfl, rfl, List.append_nil _ |>.trans hreturned⟩

/-- Nothing goes with a fiber that owns nothing. -/
theorem eq_of_holdsIn {contexts : List (ContextId × List Frame)} {c : ContextId}
    (hthere : contexts.lookup fiber = some there) (hnone : stackHoldings there = [])
    (hpath : ReflTransGen (HoldsIn contexts) fiber c) : c = fiber := by
  induction hpath with
  | refl => rfl
  | tail _ hstep ih =>
      rcases hstep with ⟨stack, hstack, hmem⟩
      rw [ih, hthere, Option.some.injEq] at hstack
      rw [<- hstack, hnone] at hmem
      cases hmem

theorem comesTo_of_idles (h : ReflTransGen State.Idles s s') :
    (Config.active s).ComesTo (.active s') := by
  induction h with
  | refl => exact .refl _
  | tail _ hstep ih => exact ih.trans ⟨1, hstep.1⟩

/-- The main program drops the generator, which leaves nothing in the log. -/
theorem MainRuns.drops
    (h : MainRuns s (slot.holder "main" .program (.drop slot :: code) (.live fiber)) fiber lease
      done told) (hreach : p.Reaches past s) (howner : lease.owner = none) :
    exists t told', (Config.active s).ComesTo (.active t) ∧ told'.log = told.log ∧
      t.LastTurn slot code told' := by
  let below : List Frame := [.code (slot.holder "main" .program code .empty), .root .program]
  let dropping : State :=
    { s with stack := .discarding [Entry.unnamed (.live fiber)] none :: below, control := .run }
  have hbegins : (Config.active s).ComesTo (.active dropping) := by
    rw [active_eq_go h.control h.stack]
    exact ⟨1, rfl⟩
  rcases hreach.comesTo hbegins with ⟨past', hreach'⟩
  rcases h.parked with ⟨there, hthere, hparked⟩
  have hmild : MildFrom dropping.contexts fiber := by
    intro c hpath
    have hnone := (hparked.mild howner (fun _ => []) .native).1
    cases eq_of_holdsIn hthere hnone hpath
    refine ⟨h.ne_main hreach.sound, fun stack hstack => ?_⟩
    cases hthere.symm.trans hstack
    exact (hparked.mild howner (fun _ => []) .native).2.1
  rcases State.abandons dropping.contexts ⟨_, hreach'.sound⟩ (fun _ _ hstack _ => hstack) hmild rfl
    rfl with ⟨gone, hrun, hstack, hclears⟩
  have hsilent : abandonLog dropping.contexts dropping.kind fiber = [] := by
    rw [abandonLog_of_lookup hthere]
    exact (hparked.mild howner _ _).2.2
  have hgains := hclears.world
  rw [hsilent] at hgains
  have hends : (Config.active gone).ComesTo (gone.go gone.world below) := by
    rw [active_eq_go hrun hstack]
    exact ⟨1, rfl⟩
  let told' : World :=
    { told with liveGuards := gone.world.liveGuards, liveStacks := gone.world.liveStacks }
  refine ⟨_, told', hbegins.trans ((comesTo_of_idles hclears.idles).trans hends), rfl, ?_⟩
  exact {
    running := hclears.running.trans h.running
    control := rfl
    stack := rfl
    globals := hgains.globals.trans h.globals
    tells :=
      { hosts := hgains.hosts.trans h.tells.hosts
        cells := hgains.cells.trans h.tells.cells
        guards := rfl
        lent := rfl
        log := hgains.untraced.trans h.tells.log } }

/-- After its loop the main program asks once more, drops the generator and comes to its end. -/
theorem MainRuns.closes
    (h : MainRuns s (slot.holder "main" .program closing (.live fiber)) fiber lease done told)
    (hreach : p.Reaches past s) (howner : lease.owner = none) :
    exists w, (Config.active s).ComesTo (.halted .finished w) ∧
      w.untraced = .ended :: .noted "main" (.said "generator unwound") ::
        .noted "main" (.affinity (bindingAfter told.hosts.self done)) :: told.log := by
  have hbinding : s.answerTo .affinity fiber = .affinity (bindingAfter told.hosts.self done) := by
    rw [State.answerTo, h.bindingOf_eq, h.tells.hosts]
  rcases h.asks hreach.sound with ⟨s₁, hcomes₁, hturn₁⟩
  rw [hbinding] at hturn₁
  rcases hreach.comesTo hcomes₁ with ⟨past₁, hreach₁⟩
  rcases hturn₁.drops hreach₁ howner with ⟨s₂, told₂, hcomes₂, hlog₂, hturn₂⟩
  rcases hreach₁.comesTo hcomes₂ with ⟨past₂, hreach₂⟩
  have hturn₂' : s₂.LastTurn slot ([.say "generator unwound"] ++ []) told₂ := hturn₂
  rcases hturn₂'.writes hreach₂.sound rfl with ⟨s₃, hcomes₃, hturn₃⟩
  rcases hturn₃.finishes with ⟨w, hcomes₄, -, hlog, -, -⟩
  refine ⟨w, hcomes₁.trans (hcomes₂.trans (hcomes₃.trans hcomes₄)), ?_⟩
  rw [hlog]
  exact congrArg (LogEntry.ended :: .noted "main" (.said "generator unwound") :: ·) hlog₂

end Turns

/-! ## The log of a run -/

/-- What a run logs, apart from its trace, if so many numbers are asked for. -/
def course (fiber : ContextId) (n : Nat) : List LogEntry :=
  [.noted "main" (.display (.live fiber)), .noted "main" (.canResume true),
      .noted "main" (.canResumeAnywhere true)] ++
    (List.range n).flatMap (roundLog fiber) ++
    [.noted "main" (.affinity (bindingAfter default n)),
      .noted "main" (.said "generator unwound"), .ended]

/-- Whatever number of rounds is asked for, a run finishes, with the log of just these rounds. -/
theorem run_program {n : Nat} (hn : n ≤ endless) :
    exists fiber, (program n).run.outcome = .finished ∧
      (program n).run.untraced = course fiber n := by
  rcases mainRuns_start n with ⟨fiber, lease, s₁, howner, hcomes₁, hturn₁⟩
  rcases Program.Reaches.start.comesTo hcomes₁ with ⟨past₁, hreach₁⟩
  rcases hturn₁.enters hreach₁ with ⟨s₂, hcomes₂, hturn₂⟩
  rcases hreach₁.comesTo hcomes₂ with ⟨past₂, hreach₂⟩
  let w := tellFirst fiber (program n).start.world
  have hturn₂' : MainRuns s₂ (asking n [] (.live fiber)) fiber lease 0 (tellRounds fiber 0 w) :=
    hturn₂
  rcases hturn₂'.rounds hreach₂ hn with ⟨s₃, hcomes₃, hturn₃⟩
  rw [Nat.add_zero] at hturn₃
  rcases hreach₂.comesTo hcomes₃ with ⟨past₃, hreach₃⟩
  rcases hturn₃.closes hreach₃ howner with ⟨w', hcomes₄, hlog⟩
  have hrun := Program.run_eq_of_comesTo
    (hcomes₁.trans (hcomes₂.trans (hcomes₃.trans hcomes₄)))
  have hself : (tellRounds fiber n w).hosts.self = default := by
    rw [(written_tellRounds fiber n w).hosts]
    rfl
  have huntraced : (Answer.ofWorld .finished w').untraced = w'.untraced.reverse :=
    List.filter_reverse ..
  have hfirst : w.log = [.noted "main" (.canResumeAnywhere true),
      .noted "main" (.canResume true), .noted "main" (.display (.live fiber))] := rfl
  refine ⟨fiber, by rw [hrun]; rfl, ?_⟩
  rw [hrun, huntraced, hlog, hself, (tellRounds_holds fiber n w).2, hfirst]
  simp [course]

end Generator

end Fibers
