import Fibers.Proofs.Protocol
import Fibers.Proofs.Weight.Whole

/-!
# Every run ends

The weight of a state falls with each step, as long as a shared slot is given the weight of the rounds
that can still begin at the end of the run.  The lowest frame of the main program tells how many these
are, and only a round that begins makes them one less.  So a run takes no more steps than its first
state weighs, and that is bounded by the program's own text.
-/

namespace Fibers

/-! ## Rounds to come -/

/-- A stack that was made from another has as many rounds to come. -/
def KeepsRounds (stack stack' : List Frame) : Prop :=
  forall stage, .root stage ∈ spine stack' ->
    exists old, .root old ∈ spine stack ∧ stage.rounds = old.rounds

theorem KeepsRounds.of_subset {stack stack' : List Frame} (h : spine stack' ⊆ spine stack) :
    KeepsRounds stack stack' := fun stage hstage => ⟨stage, h hstage, rfl⟩

theorem KeepsRounds.of_spine {stack stack' : List Frame} (h : spine stack' = spine stack) :
    KeepsRounds stack stack' := .of_subset (h ▸ List.Subset.refl _)

/-- What is put on top of a stack does not begin a run anew. -/
theorem KeepsRounds.push {f : Frame} {stack stack' : List Frame}
    (hspine : spine stack' = f :: spine stack) (hroot : forall stage, f ≠ .root stage) :
    KeepsRounds stack stack' := by
  intro stage hstage
  rw [hspine] at hstage
  rcases List.mem_cons.mp hstage with heq | hmem
  · exact absurd heq.symm (hroot stage)
  · exact ⟨stage, hmem, rfl⟩

/-- The lowest frame of a fiber says nothing of rounds. -/
theorem KeepsRounds.stage {stack stack' rest : List Frame} {old new : FiberStage}
    (hold : spine stack = .base old :: rest) (hnew : spine stack' = .base new :: rest) :
    KeepsRounds stack stack' := by
  intro stage hstage
  rw [hnew] at hstage
  rcases List.mem_cons.mp hstage with heq | hmem
  · cases heq
  · exact ⟨stage, by rw [hold]; exact List.mem_cons_of_mem _ hmem, rfl⟩

theorem KeepsRounds.settle {stack stack' rest : List Frame} {old new : RootStage}
    (hold : spine stack = .root old :: rest) (hnew : spine stack' = .root new :: rest)
    (hrounds : new.rounds = old.rounds) : KeepsRounds stack stack' := by
  intro stage hstage
  rw [hnew] at hstage
  rcases List.mem_cons.mp hstage with heq | hmem
  · cases heq
    exact ⟨old, by rw [hold]; exact List.mem_cons_self, hrounds⟩
  · exact ⟨stage, by rw [hold]; exact List.mem_cons_of_mem _ hmem, rfl⟩

namespace State

variable {s s' : State} {lost : List ContextId} {left : Nat} {c : ContextId}
  {stack stack' : List Frame}

/-- The main program, wherever it is, has so many rounds to come. -/
def RoundsLeft (s : State) (left : Nat) : Prop :=
  forall stack stage, s.stackOf mainContext = some stack -> .root stage ∈ spine stack ->
    stage.rounds = left

theorem Touches.keepsRounds (h : s.Touches c stack stack') : KeepsRounds stack stack' := by
  cases h with
  | none => exact .of_spine rfl
  | reply reply hcontrol => exact .of_spine rfl
  | function hcontrol =>
      intro stage hstage
      rw [spine_resume] at hstage
      rcases List.mem_cons.mp hstage with heq | hmem
      · cases heq
      · exact ⟨stage, List.mem_cons_of_mem _ hmem, rfl⟩

/-- What the running context comes to, if it does not begin a round. -/
theorem Sound.keepsRounds (h : s.Sound lost) (hstep : s.step = .active s')
    (hround : forall left, ¬ s.BeginsRound s' left)
    (hstack : s'.stackOf s.running = some stack') : KeepsRounds s.stack stack' := by
  have hspends := spends_step (Nat.zero_le 100) h.stands
  generalize hnext : s.step = next at hspends
  have hsame := hnext.symm.trans hstep
  have hgone : forall {w : World} {stack : List Frame}, s.go w stack = .active s' ->
      stack' = stack := by
    intro w stack hgo
    cases hgo
    exact (Option.some.inj ((if_pos rfl).symm.trans hstack)).symm
  have hparked : forall {w : World} {stack : List Frame} {target : ContextId} {signal : Signal},
      s.transfer w stack target signal = .active s' -> stack' = stack := by
    intro w stack target signal htransfer
    rw [h.stackOf_transfer htransfer, if_pos rfl, Option.some.injEq] at hstack
    exact hstack.symm
  cases hspends with
  | go hspine hafford => exact hgone hsame ▸ .of_spine hspine
  | stage hold hnew hafford => exact hgone hsame ▸ .stage hold hnew
  | settle hold hnew hleft hafford => exact hgone hsame ▸ .settle hold hnew hleft
  | back hcontrol hmessage hcalling hspine hafford =>
      rw [hgone hsame]
      refine .of_subset ?_
      rw [hspine, hcalling, spine_resume]
      exact List.subset_cons_self _ _
  | depart hswitch hspine hafford =>
      rw [hparked hsame]
      refine .push (spine_resume .. |>.trans (congrArg _ hspine)) ?_
      intro stage heq
      cases heq
  | probe hprobes hspine hafford =>
      rw [hparked hsame]
      exact .of_spine hspine
  | abandon hcontrol hdropping hspine hafford =>
      rw [hparked hsame]
      exact .of_spine hspine
  | exit hbase hafford | start hcontrol hbase hafford =>
      rw [hparked hsame, hbase]
      exact .stage rfl rfl
  | launch hop hspine hafford =>
      have hne := ne_running_of_new h.listed (h.new_of_launch hnext hstep)
      rw [h.stackOf_launch hnext hstep hne.symm, if_pos rfl, Option.some.injEq] at hstack
      rw [<- hstack]
      exact .of_spine hspine
  | lift hcontrol hmessage hspine hafford =>
      cases hsame
      rw [stackOf_go, if_pos rfl, Option.some.injEq] at hstack
      rw [<- hstack]
      refine .of_subset ?_
      rw [hspine]
      exact List.subset_cons_self _ _
  | answer hcontrol =>
      cases (h.stackOf_of_answer hcontrol hsame).symm.trans hstack
      exact .of_spine rfl
  | call hcontrol =>
      rcases h.stackOf_of_call hcontrol hsame with ⟨a, hcalled⟩
      cases hcalled.symm.trans hstack
      refine .push (spine_code .. |>.trans (spine_onTop ..)) ?_
      intro stage heq
      cases heq
  | release hcontrol =>
      cases (h.stackOf_of_release hcontrol hsame).symm.trans hstack
      exact .of_spine rfl
  | round hcontrol hroot =>
      cases hsame
      exact absurd ⟨_, _, hcontrol, hroot, by rw [hcontrol]⟩ (hround _)
  | halt => cases hsame

/-- A step that does not begin a round leaves as many to come. -/
theorem RoundsLeft.step (hleft : s.RoundsLeft left) (h : s.Sound lost)
    (hstep : s.step = .active s') (hround : forall left, ¬ s.BeginsRound s' left) :
    s'.RoundsLeft left := by
  intro stack' stage hstack' hstage
  obtain ⟨stack, hstack, hkeeps⟩ : exists stack, s.stackOf mainContext = some stack ∧
      KeepsRounds stack stack' := by
    by_cases hrunning : mainContext = s.running
    · rw [hrunning] at hstack' ⊢
      exact ⟨s.stack, stackOf_running, h.keepsRounds hstep hround hstack'⟩
    · rcases h.touches hstep hrunning hstack' with ⟨-, rfl, -⟩ | ⟨stack, hstack, htouches⟩
      · rcases List.mem_singleton.mp hstage with ⟨⟩
      · exact ⟨stack, hstack, htouches.keepsRounds⟩
  rcases hkeeps stage hstage with ⟨old, hold, hrounds⟩
  exact hrounds.trans (hleft stack old hstack hold)

/-- A round that begins is one of those that were to come. -/
theorem BeginsRound.roundsLeft {after : Nat} (hround : s.BeginsRound s' after) (h : s.Sound lost)
    (hleft : s.RoundsLeft left) : left = after + 1 ∧ s'.RoundsLeft after := by
  rcases hround with ⟨panic, below, hcontrol, hstack, rfl⟩
  have hstands := h.stands
  simp only [Stands, hcontrol, hstack] at hstands
  rcases hstands with ⟨⟨hhome, rfl⟩, -⟩
  have hmain : mainContext = s.running := by
    unfold homeOf at hhome
    split at hhome
    · rename_i heq
      exact heq.symm
    · cases hhome
  constructor
  · refine (hleft s.stack (.draining (after + 1) [] true panic) (if_pos hmain) ?_).symm
    rw [hstack]
    exact List.mem_singleton.mpr rfl
  · intro stack' stage hstack' hstage
    cases (if_pos hmain).symm.trans hstack'
    rcases List.mem_singleton.mp hstage with ⟨⟩
    rfl

end State

/-! ## The length of runs -/

namespace Program

variable {p : Program} {past : List State} {s : State}

/-- Each step that a run has taken is paid for by what its first state weighs. -/
theorem Reaches.paid (h : p.Reaches past s) :
    exists left, left ≤ 100 ∧ s.RoundsLeft left ∧
      past.length + s.weight left ≤ p.start.weight drainRounds := by
  induction h with
  | start =>
      refine ⟨drainRounds, Nat.le_refl 100, ?_, by simp⟩
      intro stack stage hstack hstage
      cases (if_pos rfl).symm.trans hstack
      rcases List.mem_singleton.mp hstage with ⟨⟩
      rfl
  | step hbefore hstep ih =>
      rename_i past s s'
      rcases ih with ⟨left, hmost, hleft, hpaid⟩
      have hsound := hbefore.sound
      by_cases hround : exists after, s.BeginsRound s' after
      · rcases hround with ⟨after, hround⟩
        rcases hround.roundsLeft hsound hleft with ⟨rfl, hafter⟩
        have hlighter := State.weight_beginsRound hround
        refine ⟨after, Nat.le_of_succ_le hmost, hafter, ?_⟩
        rw [List.length_cons]
        omega
      · rcases hsound.lighter hmost hstep with hlighter | hbegins
        · refine ⟨left, hmost, hleft.step hsound hstep fun after h => hround ⟨after, h⟩, ?_⟩
          rw [List.length_cons]
          omega
        · exact absurd hbegins hround

/-- The first state of a run weighs less than what is set as a bound. -/
theorem weight_start_lt (p : Program) : p.start.weight drainRounds < p.stepBound := by
  simp only [start, State.weight, World.weight, globalsWeight, Activation.ofCode, stackWeight_cons,
    stackWeight_nil, Frame.weight, Activation.weight, blocksWeight_cons, blocksWeight_nil,
    Block.weight, BlockKind.weight, entriesWeight_nil, Flow.weight, RootStage.weight,
    contextsWeight, Control.weight, codeWeight, stepBound, List.map_cons, List.map_nil,
    List.sum_cons, List.sum_nil]
  omega

theorem Reaches.length_lt (h : p.Reaches past s) : past.length < p.stepBound := by
  rcases h.paid with ⟨left, -, -, hpaid⟩
  exact Nat.lt_of_le_of_lt (Nat.le_of_add_right_le hpaid) p.weight_start_lt

theorem Reaches.after_eq {outcome : Outcome} {w : World} (h : p.Reaches past s)
    (hstep : s.step = .halted outcome w) :
    Config.after (past.length + 1) (.active p.start) = .halted outcome w := by
  rw [Config.after_succ, after_eq_active.mpr ⟨past, rfl, h⟩]
  exact hstep

/-- The answer of a run is what its last state ends with. -/
theorem Reaches.run_eq {outcome : Outcome} {w : World} (h : p.Reaches past s)
    (hstep : s.step = .halted outcome w) : p.run = .ofWorld outcome w := by
  have hafter : Config.after p.stepBound (.active p.start) = .halted outcome w := by
    rw [<- Nat.add_sub_of_le (Nat.succ_le_of_lt h.length_lt), Config.after_add, h.after_eq hstep,
      Config.after_halted]
  simp only [run, hafter]

/-- Whatever end is come to from the start is the end of the run. -/
theorem run_eq_of_comesTo {outcome : Outcome} {w : World}
    (h : (Config.active p.start).ComesTo (.halted outcome w)) : p.run = .ofWorld outcome w := by
  rcases h with ⟨n, hn⟩
  rcases after_eq_halted hn with ⟨past, s, hreach, hstep⟩
  exact hreach.run_eq hstep

/-- From each of its states a run comes to its end. -/
theorem Reaches.ends (h : p.Reaches past s) :
    exists n outcome w, Config.after n (.active s) = .halted outcome w := by
  refine ⟨p.stepBound, ?_⟩
  cases hafter : Config.after p.stepBound (.active s) with
  | halted outcome w => exact ⟨outcome, w, rfl⟩
  | active t =>
      have hlate : Config.after (past.length + p.stepBound) (.active p.start) = .active t := by
        rw [Config.after_add, after_eq_active.mpr ⟨past, rfl, h⟩, hafter]
      rcases after_eq_active.mp hlate with ⟨past', hlength, hreach⟩
      exact absurd hreach.length_lt (hlength ▸ Nat.not_lt.mpr (Nat.le_add_left _ _))

end Program

/-- A context runs, and has a next step: to another state, or to an end of the run that has a cause. -/
structure State.Lives (s : State) : Prop where
  runs : s.parked? s.running = some []
  standing : s.stack ≠ []
  next : (exists s', s.step = .active s') ∨
    exists outcome, outcome ≠ .stuck ∧ s.step = .halted outcome s.world

theorem State.Sound.lives {s : State} {lost : List ContextId} (h : s.Sound lost) : s.Lives where
  runs := h.listed
  standing := by
    intro hnil
    rcases h.stands.stacked with hstacked | ⟨hunborn, -⟩
    · rw [hnil] at hstacked
      exact hstacked
    · rw [hnil] at hunborn
      cases hunborn
  next := by
    cases hstep : s.step with
    | active s' => exact Or.inl ⟨s', rfl⟩
    | halted outcome w =>
        rcases h.halts hstep with ⟨-, rfl⟩
        refine Or.inr ⟨outcome, ?_, rfl⟩
        rintro rfl
        exact h.orderly.ruled _ hstep

/--
There is always a context that runs and has a next step, and the steps come to an end: a run is over
after no more of them than a bound that is read off the program, and its answer is what it has ended
with.
-/
theorem runs_end (p : Program) :
    (forall past s, p.Reaches past s -> s.Lives ∧ past.length < p.stepBound) ∧
      exists n outcome w, n ≤ p.stepBound ∧
        Config.after n (.active p.start) = .halted outcome w ∧
        (forall m s, Config.after m (.active p.start) = .active s -> m < n) ∧
        outcome ≠ .stuck ∧ p.run = .ofWorld outcome w := by
  refine ⟨fun past s hreach => ⟨hreach.sound.lives, hreach.length_lt⟩, ?_⟩
  cases hafter : Config.after p.stepBound (.active p.start) with
  | active s =>
      rcases Program.after_eq_active.mp hafter with ⟨past, hlength, hreach⟩
      exact absurd hreach.length_lt (hlength ▸ Nat.lt_irrefl _)
  | halted outcome w =>
      rcases Program.after_eq_halted hafter with ⟨past, s, hreach, hstep⟩
      have hlast := hreach.after_eq hstep
      refine ⟨past.length + 1, outcome, w, hreach.length_lt, hlast, ?_, ?_, hreach.run_eq hstep⟩
      · intro m t hactive
        refine Nat.lt_of_not_le fun hlate => ?_
        rw [<- Nat.add_sub_of_le hlate, Config.after_add, hlast,
          Config.after_halted] at hactive
        cases hactive
      · rintro rfl
        exact hreach.sound.orderly.ruled w hstep

end Fibers
