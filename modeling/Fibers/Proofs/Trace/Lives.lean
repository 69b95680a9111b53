import Fibers.Proofs.Closures.Once
import Fibers.Proofs.Termination
import Fibers.Proofs.Trace.Requests

/-!
# What the trace tells of fibers

The trace of a run accounts for the lives of all fibers.  Whatever has begun is followed up in order;
and where a run loses nothing and drains the shared slots, as many fibers have come to their end as
were made, each because its body had returned or because it was abandoned, and unwound in as many
sections as its stack had.
-/

namespace Fibers

/-! ## Sections of an abandoned fiber -/

def Frame.isOnTop : Frame -> Bool
  | onTop _ => true
  | _ => false

/-- How many functions run on top of what a context does itself. -/
def onTops (stack : List Frame) : Nat := stack.countP Frame.isOnTop

/-- Where code runs, and where a handle is waited for, the body is yet to be called, or is open. -/
theorem Stacked.stage_of_open {stack : List Frame} (h : Stacked .fiber stack)
    (hopen : CarriesCode stack ∨ InCode stack ∨ needOf stack = some .handle) :
    (exists record, stageOf stack = some (.idle record)) ∧ sections stack = onTops stack ∨
      (exists lease, stageOf stack = some (.busy lease)) ∧
        sections stack = onTops stack + 1 := by
  induction stack with
  | nil => exact h.elim
  | cons f below ih =>
      have hkeep : f.isSection = false -> f.isOnTop = false ->
          stageOf (f :: below) = stageOf below ->
          (CarriesCode below ∨ InCode below ∨ needOf below = some .handle) ->
          Stacked .fiber below ->
          (exists record, stageOf (f :: below) = some (.idle record)) ∧
              sections (f :: below) = onTops (f :: below) ∨
            (exists lease, stageOf (f :: below) = some (.busy lease)) ∧
              sections (f :: below) = onTops (f :: below) + 1 := by
        intro hsection honTop hstage hopen hbelow
        simpa [hstage, onTops, List.countP_cons, hsection, honTop] using ih hbelow hopen
      cases f with
      | code a => exact hkeep rfl rfl rfl (Or.inl h.1) h.2
      | calling call a => exact hkeep rfl rfl rfl (Or.inl h.2.2.1) h.2.2.2
      | discarding entries cause =>
          cases cause with
          | none =>
              rcases hopen with hcarries | hin | hneed
              · exact hkeep rfl rfl rfl (Or.inr (Or.inl hcarries)) h.2
              · exact hin.elim
              · cases hneed
          | some cause =>
              rcases h.2.1 with hin | hcarries
              · exact hkeep rfl rfl rfl (Or.inr (Or.inl hin)) h.2.2
              · exact hkeep rfl rfl rfl (Or.inl hcarries) h.2.2
      | onTop source =>
          have hbelow := ih h.2 (Or.inr (Or.inr h.1))
          simpa [stageOf, onTops, List.countP_cons, Frame.isSection, Frame.isOnTop,
            Nat.add_right_comm] using hbelow
      | base stage =>
          cases stage with
          | idle record => exact Or.inl ⟨⟨record, rfl⟩, by rcases h with ⟨-, -, rfl⟩; rfl⟩
          | busy lease => exact Or.inr ⟨⟨lease, rfl⟩, by rcases h with ⟨-, -, rfl⟩; rfl⟩
          | _ => simp [CarriesCode, InCode, needOf] at hopen
      | root stage => cases h.1
      | dropping => simp [CarriesCode, InCode, needOf] at hopen

/-! ## Counts over a run -/

/-- How many bodies have returned a handle. -/
def bodiesReturned (past : List State) : Nat := past.countP State.returnsBody

/-- How often a fiber has been abandoned. -/
def timesAbandoned (c : ContextId) (past : List State) : Nat :=
  past.countP fun t => t.abandoning? = some c

/-- How often control has left a context for good. -/
def timesExited (c : ContextId) (past : List State) : Nat :=
  past.countP fun t => t.running = c && t.isExiting

/-- How often the body of a context's fiber has returned a handle. -/
def timesReturned (c : ContextId) (past : List State) : Nat :=
  past.countP fun t => t.running = c && t.returnsBody

/-- The forced unwinds that were logged while a context was running. -/
def forcedIn (c : ContextId) : List State -> State -> Nat
  | [], _ => 0
  | t :: past, s =>
      forcedIn c past t +
        if t.running = c then
          countOf .forcedUnwind s.world.log - countOf .forcedUnwind t.world.log
        else 0

/-- The sections that a context had on its stack whenever it was abandoned. -/
def sectionsAbandoned (c : ContextId) (past : List State) : Nat :=
  ((past.filter fun t => t.abandoning? = some c).map fun t =>
    sections ((t.parked? c).getD [])).sum

/-- The sections that are yet to begin to unwind. -/
def sectionsDue (due : List (Option Nat)) : Nat := (due.map fun x => x.getD 0).sum

/-- What was due at a fiber that was abandoned once is what it had then. -/
theorem sectionsAbandoned_of_once {c : ContextId} {past : List State} {t : State}
    {stack : List Frame} (hone : timesAbandoned c past ≤ 1) (ht : t ∈ past)
    (habandoning : t.abandoning? = some c) (hstack : t.parked? c = some stack) :
    sectionsAbandoned c past = sections stack := by
  rw [timesAbandoned, List.countP_eq_length_filter] at hone
  have hmem : t ∈ past.filter fun t => t.abandoning? = some c :=
    List.mem_filter.mpr ⟨ht, decide_eq_true habandoning⟩
  rcases List.length_eq_one_iff.mp (Nat.le_antisymm hone (List.length_pos_of_mem hmem)) with
    ⟨only, honly⟩
  rw [honly] at hmem
  cases List.mem_singleton.mp hmem
  rw [sectionsAbandoned, honly]
  simp [hstack]

namespace State

variable {s s' : State} {lost : List ContextId} {c : ContextId} {past : List State}

/-! ## One step -/

/-- What is due in all contexts, up to some address. -/
def allDue (s : State) (bound : Nat) : List (Option Nat) := (List.range bound).flatMap s.due

/-- One context's due makes up for what all contexts have due. -/
theorem length_allDue (bound : Nat) (hc : c < bound)
    (hothers : forall d, d ≠ c -> s'.due d = s.due d) :
    (s'.allDue bound).length + (s.due c).length = (s.allDue bound).length + (s'.due c).length := by
  have hcount := countP_flatMap_update (f := s.due) (g := s'.due) (fun _ => true)
    List.nodup_range (List.mem_range.mpr hc) fun d _ hd => hothers d hd
  simpa [allDue, List.countP_true] using hcount

/-- Each exit that was logged was due, and each that is due has a cause. -/
theorem Sound.exits_step {bound : Nat} (h : s.Sound lost) (hlossless : s.swallows = [])
    (hstep : s.step = .active s') (hbound : s.world.memory.next ≤ bound) (past : List State) :
    countOf .exiting s'.world.log + (s'.allDue bound).length + bodiesReturned past +
        countOf .abandoned s.world.log =
      countOf .exiting s.world.log + (s.allDue bound).length + bodiesReturned (s :: past) +
        countOf .abandoned s'.world.log := by
  have hrunning : s.running < bound := Nat.lt_of_lt_of_le (h.lt_next h.running_mem) hbound
  rcases h.discharges hlossless hstep with ⟨entries, hlog, hdischarges⟩
  simp only [hlog, countOf_append, bodiesReturned, List.countP_cons]
  cases hdischarges with
  | nothing habandoning hreturns hexiting habandoned hforced hexited hdue =>
      have hsame : s'.allDue bound = s.allDue bound :=
        congrArg List.flatten (List.map_congr_left fun c _ => hdue c)
      simp [countOf, habandoned, hexited, hreturns, hsame]
  | @abandons c stack habandoning hreturns hexiting hlogged hparked hdue hothers =>
      have hlisted := h.lt_next (mem_contextKeys.mpr ⟨stack, hparked⟩)
      have hlength := length_allDue bound (Nat.lt_of_lt_of_le hlisted hbound) hothers
      simp only [hdue, List.length_cons] at hlength
      simp [countOf, hlogged, hreturns]
      omega
  | forces habandoning hreturns hexiting hlogged hdue hdue' hothers =>
      have hlength := length_allDue bound hrunning hothers
      simp only [hdue, hdue', List.length_cons] at hlength
      simp [countOf, hlogged, hreturns]
      omega
  | returns habandoning hreturns hexiting hlogged hdue hdue' hothers =>
      have hlength := length_allDue bound hrunning hothers
      simp only [hdue, hdue', List.length_cons, List.length_nil] at hlength
      simp [countOf, hlogged, hreturns]
      omega
  | exits habandoning hreturns hexiting hlogged hdue hbegun hdue' hothers =>
      have hlength := length_allDue bound hrunning hothers
      simp only [hdue, hdue', List.length_cons, List.length_nil] at hlength
      simp [countOf, hlogged, hreturns]
      omega

/-- So it is for each fiber. -/
theorem Sound.times_step (h : s.Sound lost) (hlossless : s.swallows = [])
    (hstep : s.step = .active s') (c : ContextId) (past : List State) :
    (s'.due c).length + timesExited c (s :: past) + timesAbandoned c past + timesReturned c past =
      (s.due c).length + timesExited c past + timesAbandoned c (s :: past) +
        timesReturned c (s :: past) := by
  rcases h.discharges hlossless hstep with ⟨entries, hlog, hdischarges⟩
  simp only [timesExited, timesAbandoned, timesReturned, List.countP_cons]
  cases hdischarges with
  | nothing habandoning hreturns hexiting habandoned hforced hexited hdue =>
      simp [habandoning, hreturns, hexiting, hdue]
  | @abandons d stack habandoning hreturns hexiting hlogged hparked hdue hothers =>
      by_cases hc : c = d
      · subst hc
        simp [habandoning, hreturns, hexiting, hdue]
        omega
      · simp [habandoning, hreturns, hexiting, hothers c hc, Ne.symm hc]
  | forces habandoning hreturns hexiting hlogged hdue hdue' hothers =>
      by_cases hc : c = s.running
      · subst hc
        simp [habandoning, hreturns, hexiting, hdue, hdue']
      · simp [habandoning, hreturns, hexiting, hothers c hc]
  | returns habandoning hreturns hexiting hlogged hdue hdue' hothers =>
      by_cases hc : c = s.running
      · subst hc
        simp [habandoning, hreturns, hexiting, hdue, hdue']
        omega
      · simp [habandoning, hexiting, hothers c hc, Ne.symm hc]
  | exits habandoning hreturns hexiting hlogged hdue hbegun hdue' hothers =>
      by_cases hc : c = s.running
      · subst hc
        simp [habandoning, hreturns, hexiting, hdue, hdue']
        omega
      · simp [habandoning, hreturns, hothers c hc, Ne.symm hc]

/-- A section that is due begins to unwind with an entry in the log. -/
theorem Sound.forced_step (h : s.Sound lost) (hlossless : s.swallows = [])
    (hstep : s.step = .active s') (c : ContextId) (past : List State) :
    forcedIn c (s :: past) s' + sectionsDue (s'.due c) + sectionsAbandoned c past =
      forcedIn c past s + sectionsDue (s.due c) + sectionsAbandoned c (s :: past) := by
  rcases h.discharges hlossless hstep with ⟨entries, hlog, hdischarges⟩
  simp only [forcedIn, hlog, countOf_append, Nat.add_sub_cancel, sectionsAbandoned]
  cases hdischarges with
  | nothing habandoning hreturns hexiting habandoned hforced hexited hdue =>
      simp [countOf, habandoning, hforced, hdue]
  | @abandons d stack habandoning hreturns hexiting hlogged hparked hdue hothers =>
      by_cases hc : c = d
      · subst hc
        simp [countOf, hlogged, habandoning, hdue, hparked, sectionsDue]
        omega
      · simp [countOf, hlogged, habandoning, hothers c hc, Ne.symm hc]
  | forces habandoning hreturns hexiting hlogged hdue hdue' hothers =>
      by_cases hc : c = s.running
      · subst hc
        simp [countOf, hlogged, habandoning, hdue, hdue', sectionsDue]
        omega
      · simp [habandoning, hothers c hc, Ne.symm hc]
  | returns habandoning hreturns hexiting hlogged hdue hdue' hothers =>
      by_cases hc : c = s.running
      · subst hc
        simp [countOf, hlogged, habandoning, hdue, hdue', sectionsDue]
      · simp [habandoning, hothers c hc, Ne.symm hc]
  | exits habandoning hreturns hexiting hlogged hdue hbegun hdue' hothers =>
      by_cases hc : c = s.running
      · subst hc
        simp [countOf, hlogged, habandoning, hdue, hdue', sectionsDue, hbegun]
      · simp [habandoning, hothers c hc, Ne.symm hc]

/-- Control has left a context for good once it lands elsewhere for that. -/
theorem Sound.releasing?_iff_exiting (h : s.Sound lost) (hstep : s.step = .active s') :
    s'.releasing? = some c ↔ s.running = c ∧ s.isExiting = true := by
  rw [releasing?_iff]
  constructor
  · intro hcontrol
    rcases h.leaving_of_exit hstep hcontrol with ⟨hrunning, hrun, lease, ending, hstack⟩
    exact ⟨hrunning, by simp [isExiting, hrun, hstack]⟩
  · rintro ⟨rfl, hexiting⟩
    unfold isExiting at hexiting
    split at hexiting
    · rename_i lease ending below hrun hstack
      have hmove : s.transfer (s.world.trace (.exiting lease.name)) (.base (.exited lease) :: below)
          ending.next .exit = .active s' := by
        rw [<- hstep]
        simp only [step, hrun, run, hstack, runBase]
      rcases transfer_eq_active hmove with ⟨there, -, -, rfl⟩
      rfl
    · cases hexiting

/-! ## The end of a run -/

theorem DrainedDry.stack_eq (h : s.Sound lost) (hdry : s.DrainedDry) :
    s.control = .run ∧ exists stage, s.stack = [.root stage] := by
  rcases hdry with ⟨hrun, rounds, panic, below, hstack⟩
  have hstands := h.stands
  simp only [Stands, hrun, hstack] at hstands
  rcases hstands with ⟨⟨-, rfl⟩, -⟩
  exact ⟨hrun, _, hstack⟩

section End

variable (h : s.Sound []) (hdry : s.DrainedDry) (hnothing : s.holdings = [])

include h hdry hnothing

theorem DrainedDry.due_eq_nil (c : ContextId) : s.due c = [] := by
  rcases hdry.stack_eq h with ⟨hrun, stage, hstack⟩
  rw [due_of_not_evicting (evicting_of_run hrun)]
  by_cases hc : c = s.running
  · rw [hc, stackOf_running, hstack]
    rfl
  · rw [stackOf_of_ne hc, h.parked?_eq_none hnothing hc]
    rfl

theorem DrainedDry.marks_eq_nil : s.marks = [] := by
  rcases hdry.stack_eq h with ⟨-, stage, hstack⟩
  refine List.flatMap_eq_nil_iff.mpr fun c _ => ?_
  by_cases hc : c = s.running
  · rw [hc, marksAt_running, hstack]
    rfl
  · rw [marksAt, stackOf_of_ne hc, h.parked?_eq_none hnothing hc]
    rfl

end End

end State

/-! ## Whole runs -/

theorem lostIn_cons_eq_nil {s : State} {past : List State} (h : lostIn (s :: past) = []) :
    s.swallows = [] ∧ lostIn past = [] := List.append_eq_nil_iff.mp h

namespace Program.Reaches

variable {p : Program} {past : List State} {s : State}

theorem due_start (p : Program) (c : ContextId) : p.start.due c = [] := by
  have hmain : p.start.stackOf c = none ∨
      p.start.stackOf c = some [.code (Activation.ofCode .program "main" p.main), .root .program] ∨
      p.start.stackOf c = some [] := by
    unfold State.stackOf
    split
    · exact Or.inr (Or.inl rfl)
    · simp only [State.parked?, Program.start, List.lookup_cons, List.lookup_nil]
      split
      · exact Or.inr (Or.inr rfl)
      · exact Or.inl rfl
  rw [State.due_of_not_evicting rfl]
  rcases hmain with hstack | hstack | hstack <;> rw [hstack] <;> rfl

theorem exits_due (h : p.Reaches past s) (hlost : lostIn past = []) {bound : Nat}
    (hbound : s.world.memory.next ≤ bound) :
    countOf .exiting s.world.log + (s.allDue bound).length =
      bodiesReturned past + countOf .abandoned s.world.log := by
  induction h with
  | start =>
      have hnil : p.start.allDue bound = [] := List.flatMap_eq_nil_iff.mpr fun c _ => due_start p c
      rw [hnil]
      rfl
  | @step past s s' hreach hstep ih =>
      rcases lostIn_cons_eq_nil hlost with ⟨hnow, hbefore⟩
      have hmemory := Nat.le_trans (hreach.sound.move hstep).1.memory_le hbound
      have hold := ih hbefore hmemory
      have hchange := hreach.sound.exits_step hnow hstep hmemory past
      omega

theorem times_due (h : p.Reaches past s) (hlost : lostIn past = []) (c : ContextId) :
    timesAbandoned c past + timesReturned c past = (s.due c).length + timesExited c past := by
  induction h with
  | start => rw [due_start]; rfl
  | @step past s s' hreach hstep ih =>
      rcases lostIn_cons_eq_nil hlost with ⟨hnow, hbefore⟩
      have hold := ih hbefore
      have hchange := hreach.sound.times_step hnow hstep c past
      omega

theorem forced_due (h : p.Reaches past s) (hlost : lostIn past = []) (c : ContextId) :
    forcedIn c past s + sectionsDue (s.due c) = sectionsAbandoned c past := by
  induction h with
  | start => rw [due_start]; rfl
  | @step past s s' hreach hstep ih =>
      rcases lostIn_cons_eq_nil hlost with ⟨hnow, hbefore⟩
      have hold := ih hbefore
      have hchange := hreach.sound.forced_step hnow hstep c past
      omega

/-- A context is left for good when its stack is about to be given back. -/
theorem timesExited_eq (h : p.Reaches past s) (c : ContextId) :
    timesExited c past = past.countP (fun t => t.releasing? = some c) +
      if s.releasing? = some c then 1 else 0 := by
  induction h with
  | start => rfl
  | @step past s s' hreach hstep ih =>
      have hiff := hreach.sound.releasing?_iff_exiting (c := c) hstep
      unfold timesExited at ih ⊢
      rw [List.countP_cons, List.countP_cons, ih]
      by_cases hexits : s.running = c ∧ s.isExiting = true
      · simp [hiff.mpr hexits, hexits.1, hexits.2, Nat.add_assoc]
      · have hnot : (decide (s.running = c) && s.isExiting) = false := by
          rw [Bool.and_eq_false_iff, decide_eq_false_iff_not]
          by_cases hrunning : s.running = c
          · exact Or.inr (Bool.eq_false_iff.mpr fun hexiting => hexits ⟨hrunning, hexiting⟩)
          · exact Or.inl hrunning
        have hnone : s'.releasing? ≠ some c := fun hreleasing => hexits (hiff.mp hreleasing)
        simp [hnot, hnone]

theorem timesExited_le_one (h : p.Reaches past s) (c : ContextId) : timesExited c past ≤ 1 := by
  rw [h.timesExited_eq]
  split
  · rename_i hreleasing
    have hcontrol := State.releasing?_iff.mp hreleasing
    rcases h.sound.release hcontrol with ⟨lease, s', -, hmove, -, -⟩
    have hstep : s.step = .active s' := by
      rw [<- hmove]
      simp only [State.step, hcontrol, State.land]
    have honce := (h.step hstep).released_once c
    rw [List.countP_cons, if_pos (decide_eq_true hreleasing)] at honce
    exact honce
  · exact h.released_once c

theorem earlier_of_mem (h : p.Reaches past s) {t : State} (ht : t ∈ past) :
    exists before, p.Reaches before t := by
  rcases List.append_of_mem ht with ⟨later, before, rfl⟩
  have hrun : s :: (later ++ t :: before) = (s :: later) ++ t :: before := rfl
  exact ⟨before, h.earlier hrun⟩

/-- The main program's context is never left for good. -/
theorem timesExited_main (h : p.Reaches past s) : timesExited mainContext past = 0 := by
  refine List.countP_eq_zero.mpr fun t ht hexits => ?_
  rcases Bool.and_eq_true_iff.mp hexits with ⟨hrunning, hexiting⟩
  rcases h.earlier_of_mem ht with ⟨before, hbefore⟩
  have hstands := hbefore.sound.stands
  unfold State.isExiting at hexiting
  split at hexiting
  · rename_i lease ending below hrun hstack
    simp only [State.Stands, hrun, hstack, of_decide_eq_true hrunning] at hstands
    cases hstands.1.1
  · cases hexiting

end Program.Reaches

/-! ## The accounts -/

/-- What the trace of a program's run shows of what follows what. -/
structure Program.TracesInOrder (p : Program) : Prop where
  /-- A stack is registered, and then its fiber is created. -/
  registered : forall before stack after,
    p.run.log = before ++ .traced (.registering stack) :: after ->
      exists fiber rest, after = .traced (.created fiber) :: rest
  /-- A fiber exits, and then its stack is released. -/
  exited : forall before name after,
    p.run.log = before ++ .traced (.exiting name) :: after ->
      exists rest, after = .traced (.releasing name) :: rest
  /-- What comes later in a life is never ahead. -/
  ordered : forall before after, p.run.log = before ++ after ->
    countOf .releasing before ≤ countOf .exiting before ∧
      countOf .exiting before ≤ countOf .created before ∧
      countOf .created before ≤ countOf .registering before ∧
      countOf .dispatching before ≤ countOf .created before

/-- What the trace shows of all fibers once none is left. -/
structure State.AccountsForLives (s : State) (past : List State) : Prop where
  released : countOf .releasing s.world.log = countOf .exiting s.world.log
  exited : countOf .exiting s.world.log = countOf .created s.world.log
  created : countOf .created s.world.log = countOf .registering s.world.log
  /-- A fiber exits because its body has returned, or because it was abandoned. -/
  causes : countOf .exiting s.world.log = bodiesReturned past + countOf .abandoned s.world.log
  /-- Each section of an abandoned fiber is unwound, but for a body that was not called. -/
  unwound : forall t c, t ∈ past -> t.abandoning? = some c -> exists stack,
    t.parked? c = some stack ∧
      ((exists record, stageOf stack = some (.idle record)) ∧ forcedIn c past s = onTops stack ∨
        (exists lease, stageOf stack = some (.busy lease)) ∧
          forcedIn c past s = onTops stack + 1)
  spans : countOf .left s.world.log = countOf .entered s.world.log

theorem countOf_reverse (m : Milestone) (log : List LogEntry) :
    countOf m log.reverse = countOf m log := by
  unfold countOf milestones
  rw [List.filterMap_reverse, List.count_reverse]

namespace Program.Reaches

variable {p : Program} {past : List State} {s : State}

/-- Once a run has come to its end, no entry of its log is left without what follows it. -/
theorem followed (h : p.Reaches past s) {outcome : Outcome} {w : World}
    (hhalts : s.step = .halted outcome w) {before after : List LogEntry} {e : LogEntry}
    (hlog : s.world.log.reverse = before ++ e :: after) (hopens : e.isOpening = true) :
    exists e' rest, after = e' :: rest ∧ e'.Completes e := by
  have hlatest : s.world.log = after.reverse ++ e :: before.reverse := by
    have hreverse := congrArg List.reverse hlog
    simpa using hreverse
  cases after with
  | nil =>
      have howes : s.Owes e := h.completing.last e (by rw [hlatest]; rfl) hopens
      rcases h.sound.pays howes with ⟨s', hstep, -⟩
      cases hhalts.symm.trans hstep
  | cons e' rest =>
      refine ⟨e', rest, rfl, ?_⟩
      have hchain := h.completing.log
      rw [hlatest, List.reverse_cons, List.append_assoc] at hchain
      have hpair : Completed (e' :: e :: before.reverse) := List.IsChain.right_of_append hchain
      exact (List.isChain_cons_cons.mp hpair).1 hopens

theorem accountsForLives (h : p.Reaches past s) (hlost : lostIn past = []) (hdry : s.DrainedDry) :
    s.AccountsForLives past := by
  have hsound := h.sound
  rw [hlost] at hsound
  have hnothing := (hsound.holdings_of_drainedDry (h.allReached_of_lostIn hlost) h.tidy hdry).1
  have hmarks := hdry.marks_eq_nil hsound hnothing
  have hdue := hdry.due_eq_nil hsound hnothing
  have hmaking := h.balanced Account.balanced_making
  have hliving := h.balanced Account.balanced_living
  have hleaving := h.balanced Account.balanced_leaving
  have hinSpan := h.balanced Account.balanced_inSpan
  simp only [hmarks, List.countP_nil, Account.making, Account.living, Account.leaving,
    Account.inSpan, Nat.add_zero] at hmaking hliving hleaving hinSpan
  refine ⟨hleaving, by omega, hmaking, ?_, ?_, hinSpan⟩
  · have hexits := h.exits_due hlost (Nat.le_refl _)
    have hnil : s.allDue s.world.memory.next = [] :=
      List.flatMap_eq_nil_iff.mpr fun c _ => hdue c
    rw [hnil] at hexits
    exact hexits
  · intro t c ht habandoning
    have hexited := h.times_due hlost c
    rw [hdue c, List.length_nil, Nat.zero_add] at hexited
    have honce : timesAbandoned c past ≤ 1 := by
      have hone := h.timesExited_le_one c
      omega
    have hpos : 0 < timesAbandoned c past :=
      List.countP_pos_iff.mpr ⟨t, ht, decide_eq_true habandoning⟩
    have hfiber : homeOf c = .fiber := by
      refine if_neg ?_
      rintro rfl
      have hnever := h.timesExited_main
      omega
    rcases h.earlier_of_mem ht with ⟨before, hbefore⟩
    have hheld : 0 < t.holdings.count (.token .handle c) := by
      unfold State.abandoning? at habandoning
      split at habandoning
      · rename_i name fiber rest cause below hrun hstack
        cases habandoning
        refine List.count_pos_iff.mpr ?_
        simp [State.holdings, State.pool, hstack, Frame.holdings, Entry.holdings, Handle.holdings]
      · cases habandoning
    rcases hbefore.sound.parked_of_token hheld with ⟨stack, hstack, hneed⟩
    have hne := hbefore.sound.ne_running hstack hneed
    have hstacked := (hbefore.sound.parked c stack hne hstack).1
    rw [hfiber] at hstacked
    have hforced := h.forced_due hlost c
    rw [hdue c, sectionsAbandoned_of_once honce ht habandoning hstack] at hforced
    refine ⟨stack, hstack, ?_⟩
    rcases hstacked.stage_of_open (Or.inr (Or.inr hneed)) with ⟨hidle, hcount⟩ | ⟨hbusy, hcount⟩
    · exact Or.inl ⟨hidle, hforced.trans hcount⟩
    · exact Or.inr ⟨hbusy, hforced.trans hcount⟩

end Program.Reaches

/-- The log of a run is that of its last state. -/
theorem Program.run_log (p : Program) : exists past s outcome w,
    p.Reaches past s ∧ s.step = .halted outcome w ∧ p.run.log = s.world.log.reverse := by
  rcases (Reaches.start : p.Reaches [] p.start).ends with ⟨n, outcome, w, hafter⟩
  rcases after_eq_halted hafter with ⟨past, s, hreach, hstep⟩
  refine ⟨past, s, outcome, w, hreach, hstep, ?_⟩
  rw [hreach.run_eq hstep, (hreach.sound.halts hstep).2]
  rfl

theorem Program.tracesInOrder (p : Program) : p.TracesInOrder := by
  rcases p.run_log with ⟨past, s, outcome, w, hreach, hhalts, hlog⟩
  constructor
  · intro before stack after hrun
    rw [hlog] at hrun
    rcases hreach.followed hhalts hrun rfl with ⟨e', rest, rfl, hcompletes⟩
    cases hcompletes
    exact ⟨_, rest, rfl⟩
  · intro before name after hrun
    rw [hlog] at hrun
    rcases hreach.followed hhalts hrun rfl with ⟨e', rest, rfl, hcompletes⟩
    cases hcompletes
    exact ⟨rest, rfl⟩
  · intro before after hrun
    rw [hlog] at hrun
    have hsuffix : before.reverse <:+ s.world.log := by
      refine ⟨after.reverse, ?_⟩
      rw [<- List.reverse_append, <- hrun, List.reverse_reverse]
    have hordered : forall m n, (m, n) ∈ milestoneOrder -> countOf m before ≤ countOf n before := by
      intro m n horder
      have hcount := hreach.countOf_le_of_suffix horder hsuffix
      rwa [countOf_reverse, countOf_reverse] at hcount
    exact ⟨hordered _ _ (by decide), hordered _ _ (by decide), hordered _ _ (by decide),
      hordered _ _ (by decide)⟩

/--
The trace accounts for the lives of fibers.  In each run their events come in order; and if a program
that swallows no forced unwind drains its shared slots, all fibers that were made have come to an end
by then, each for a cause of its own, and each span that was entered was left.
-/
theorem lives_accounted (p : Program) :
    p.TracesInOrder ∧
      forall past s, p.Reaches past s -> Discipline.lossless.allowsAll p.main = true ->
        s.DrainedDry ->
          s.Concludes ∧ p.run.log = s.world.log.reverse ∧ s.AccountsForLives past := by
  refine ⟨p.tracesInOrder, fun past s h hmain hdry => ?_⟩
  have hconcludes := hdry.concludes
  refine ⟨hconcludes, ?_, h.accountsForLives (h.lostIn_eq_nil hmain) hdry⟩
  rcases hconcludes with hfinished | ⟨payload, hpanicked⟩
  · rw [h.run_eq hfinished]
    rfl
  · rw [h.run_eq hpanicked]
    rfl

/-- A program that parks a function on top of a fiber, and ends with its body not called. -/
def Program.parkedFunction : Program where
  hosts := []
  main :=
    [.create ⟨.own "f", "F", none, .heap "A" 4096⟩ ["g"] [] [],
      .resumeWith ⟨.own "f", false, none, .own "f", .keep⟩ [] []
        [.resume ⟨.own "source", false, none, .own "source", .keep⟩]]

set_option maxRecDepth 10000 in
theorem lives_accounted_of_parkedFunction :
    Program.parkedFunction.TracesInOrder ∧
      exists past s, Program.parkedFunction.Reaches past s ∧ s.DrainedDry ∧ s.Concludes ∧
        Program.parkedFunction.run.log = s.world.log.reverse ∧ s.AccountsForLives past ∧
          countOf .forcedUnwind s.world.log = 1 ∧ countOf .dispatching s.world.log = 0 := by
  have hafter : exists s, Config.after 30 (.active Program.parkedFunction.start) = .active s ∧
      s.control = .run ∧ s.world.globals = [] ∧ s.stack = [.root (.draining 100 [] true none)] ∧
        countOf .forcedUnwind s.world.log = 1 ∧ countOf .dispatching s.world.log = 0 :=
    ⟨_, rfl, rfl, rfl, rfl, rfl, rfl⟩
  rcases hafter with ⟨s, hs, hrun, hglobals, hstack, hforced, hdispatched⟩
  rcases Program.after_eq_active.mp hs with ⟨past, -, hreach⟩
  have hround : s.step = .active { s with stack := [.root (.draining 99 [] false none)] } := by
    simp [State.step, hrun, State.run, hstack, State.runRoot, State.go, World.globalNames,
      hglobals]
  have hlast := hreach.step hround
  have hdry : State.DrainedDry { s with stack := [.root (.draining 99 [] false none)] } :=
    ⟨hrun, 99, none, [], rfl⟩
  rcases lives_accounted Program.parkedFunction with ⟨horder, hend⟩
  rcases hend _ _ hlast rfl hdry with ⟨hconcludes, hlog, haccounts⟩
  exact ⟨horder, _, _, hlast, hdry, hconcludes, hlog, haccounts, hforced, hdispatched⟩

end Fibers
