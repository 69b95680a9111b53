import Fibers.Proofs.Abandon.Run
import Fibers.Proofs.Lending
import Fibers.Proofs.Protocol
import Fibers.Proofs.Stacks

/-!
# How stacks are given back

The stack of a fiber is given back by the context that control goes to when the fiber is over, and
before that context does anything else.  The fiber is off its stack by then, and nothing runs there
ever after.  So each stack is given back once, and the count of those that are out is right at any
time.
-/

namespace Fibers

namespace State

variable {s s' t r : State} {lost : List ContextId} {c : ContextId}

/-- The fiber whose stack is given back in the next step. -/
def releasing? (s : State) : Option ContextId :=
  match s.control with
  | .landed source .exit => some source
  | _ => none

theorem releasing?_iff : s.releasing? = some c ↔ s.control = .landed c .exit := by
  unfold releasing?
  split
  · rename_i source hcontrol
    simp [hcontrol]
  · rename_i hnot
    constructor
    · intro h
      cases h
    · exact fun h => (hnot c h).elim

/-! ## The end of a fiber -/

/-- Where a context waits that takes over from a fiber that is over. -/
def Ending.Awaits : Ending -> List Frame -> Prop
  | .returned _ => AtRest
  | .unwound _ => InDropOf

/--
A fiber is over, and its stack is given back, in three states that follow each other: the last one
of the fiber's, and the first two of whoever takes over.
-/
structure Bequeaths (s t r : State) (c : ContextId) (lease : Lease) (ending : Ending) : Prop where
  /-- Nothing is left on the stack that could run, or be dropped. -/
  leaves : s.running = c ∧ s.control = .run ∧ s.stack = [.base (.leaving lease ending)]
  arrives : t.running = ending.next ∧ t.control = .landed c .exit ∧ Ending.Awaits ending t.stack
  /-- The next context goes on only when the stack is back. -/
  released : r.running = ending.next ∧ r.control = .landed c (.message .farewell) ∧
    r.stack = t.stack ∧ r.parked? c = none
  silent : t.world.untraced = s.world.untraced
  logged : r.world.untraced = lease.returnLog (homeOf ending.next) ++ t.world.untraced

/-- Only a fiber that is over sends an exit. -/
theorem Sound.leaving_of_exit (h : s.Sound lost) (hstep : s.step = .active t)
    (hcontrol : t.control = .landed c .exit) :
    s.running = c ∧ s.control = .run ∧
      exists lease ending, s.stack = [.base (.leaving lease ending)] := by
  have hshifts := s.shifts_step
  have hstands := h.stands
  generalize hnext : s.step = next at hshifts
  have hsame := hnext.symm.trans hstep
  cases hshifts with
  | exit hrun hstack =>
      rename_i w lease ending below
      rcases transfer_eq_active hsame with ⟨there, -, -, rfl⟩
      cases hcontrol
      rw [Stands, hrun, hstack] at hstands
      rcases hstands with ⟨⟨-, -, rfl⟩, -⟩
      exact ⟨rfl, hrun, lease, ending, hstack⟩
  | resume | resumeWith | probe | abandon | start | launch =>
      rcases transfer_eq_active hsame with ⟨there, -, -, rfl⟩
      cases hcontrol
  | answer hquery =>
      rcases h.answer hquery with ⟨query, reply, purpose, a, below, -, hmove, -⟩
      cases hmove.symm.trans hsame
      cases hcontrol
  | call honTop =>
      rcases h.call honTop with ⟨host, f, target, a, below, -, hmove, -⟩
      cases hmove.symm.trans hsame
      cases hcontrol
  | release hexit =>
      rcases h.release hexit with ⟨lease, after, -, hmove, hr, -⟩
      cases hmove.symm.trans hsame
      rw [hr.control] at hcontrol
      cases hcontrol
  | go | cleanUp | give | giveNothing | redeliver | dispatch | finish | unwound | evict =>
      cases hsame
      cases hcontrol
  | halt => cases hsame

theorem Sound.awaits {ending : Ending} (h : s.Sound lost) {lease : Lease}
    (hstack : s.stack = [.base (.leaving lease ending)]) :
    exists there, s.parked? ending.next = some there ∧ Ending.Awaits ending there := by
  cases ending with
  | returned next =>
      have htoken : .token .handle next ∈ s.holdings := by
        simp [holdings, pool, hstack, Frame.holdings, FiberStage.holdings, Ending.holdings]
      rcases h.parked_of_token (List.count_pos_iff.mpr htoken) with ⟨there, hthere, hneed⟩
      have hne := h.ne_running hthere hneed
      exact ⟨there, hthere, .of_needOf (h.parked _ _ hne hthere).1 hneed⟩
  | unwound requester =>
      have htoken : .token .request requester ∈ s.holdings := by
        simp [holdings, pool, hstack, Frame.holdings, FiberStage.holdings, Ending.holdings]
      rcases h.parked_of_token (List.count_pos_iff.mpr htoken) with ⟨there, hthere, hneed⟩
      exact ⟨there, hthere, needOf_request hneed⟩

theorem Sound.bequeaths (h : s.Sound lost) (hstep : s.step = .active t)
    (hcontrol : t.control = .landed c .exit) (hstep' : t.step = .active r) :
    exists lease ending, s.Bequeaths t r c lease ending := by
  have hmoved := (h.move hstep).2
  rcases h.leaving_of_exit hstep hcontrol with ⟨rfl, hrun, lease, ending, hstack⟩
  have htransfer : s.step = s.transfer (s.world.trace (.exiting lease.name))
      [.base (.exited lease)] ending.next .exit := by
    simp only [step, hrun, run, hstack, runBase]
  rcases transfer_eq_active (htransfer.symm.trans hstep) with ⟨there, hthere, hnil, rfl⟩
  have hne : ending.next ≠ s.running := by
    intro heq
    rw [heq, h.listed] at hthere
    cases hthere
    exact hnil rfl
  have hparked := parked?_hop (s.world.trace (.exiting lease.name)) [.base (.exited lease)] there
    .exit h.listed hthere hne
  rcases hmoved.release hcontrol with ⟨lease', after, hsource, hrelease, hr, hafter⟩
  have hlease : lease' = lease := by
    rw [hparked, if_neg hne.symm, if_pos rfl] at hsource
    cases hsource
    rfl
  subst hlease
  have hlast : after = r := by
    simp only [step, hcontrol, land, hrelease] at hstep'
    cases hstep'
    rfl
  subst hlast
  have hgains := release_gains hsource hrelease
  rw [hafter.kind, hr.running] at hgains
  rcases h.awaits hstack with ⟨there', hthere', hawaits⟩
  rw [hthere, Option.some.injEq] at hthere'
  subst hthere'
  have hreverse : (lease'.returnLog (homeOf ending.next)).reverse =
      lease'.returnLog (homeOf ending.next) := by
    unfold Lease.returnLog
    cases lease'.owner <;> rfl
  refine ⟨lease', ending, ?_⟩
  constructor
  · exact ⟨rfl, hrun, hstack⟩
  · exact ⟨rfl, rfl, hawaits⟩
  · exact ⟨hr.running, hr.control, hr.stack, (hr.parked? _).trans (if_pos rfl)⟩
  · exact (World.gains_trace _).untraced
  · exact hgains.untraced.trans (congrArg (· ++ _) hreverse)

/-- A fiber that is over has its stack given back by the next two steps. -/
theorem Sound.leaves {lease : Lease} {ending : Ending} (h : s.Sound lost) (hrun : s.control = .run)
    (hstack : s.stack = [.base (.leaving lease ending)]) :
    exists t r, s.step = .active t ∧ t.step = .active r ∧
      s.Bequeaths t r s.running lease ending := by
  rcases h.exits hrun hstack with ⟨t, hstep, -, hcontrol⟩
  rcases (h.move hstep).2.release hcontrol with ⟨lease', r, -, hrelease, -, -⟩
  have hstep' : t.step = .active r := by
    simp only [step, hcontrol, land, hrelease]
  rcases h.bequeaths hstep hcontrol hstep' with ⟨lease'', ending', hbequeaths⟩
  have hsame := hbequeaths.leaves.2.2
  rw [hstack] at hsame
  cases hsame
  exact ⟨t, r, hstep, hstep', hbequeaths⟩

/-! ## One step -/

/-- A context that is gone does not come back: its number has been given out. -/
theorem Move.gone (hm : s.Move s') (hold : c < s.world.memory.next)
    (hgone : c ∉ contextKeys s.contexts) :
    c < s'.world.memory.next ∧ c ∉ contextKeys s'.contexts := by
  cases hm with
  | stay ht =>
      rw [ht.contexts]
      exact ⟨Nat.lt_of_lt_of_le hold ht.memory, hgone⟩
  | switch need hd =>
      refine ⟨Nat.lt_of_lt_of_le hold hd.memory, ?_⟩
      simpa only [hop, contextKeys_replaceStack] using hgone
  | answer =>
      refine ⟨hold, ?_⟩
      simpa only [hop, contextKeys_replaceStack] using hgone
  | launch hl =>
      have hfiber := Nat.lt_of_lt_of_le hold hl.memory.1
      refine ⟨Nat.lt_trans hfiber hl.memory.2, ?_⟩
      simp only [launched, hop, grown, contextKeys_replaceStack]
      exact fun hmem => (List.mem_cons.mp hmem).elim (Nat.ne_of_lt hfiber) hgone
  | call =>
      refine ⟨hold, ?_⟩
      simpa only [topped, contextKeys_replaceStack] using hgone
  | release hcontrol hsource hr =>
      rw [hr.memory, hr.contexts, contextKeys_filter]
      exact ⟨hold, fun hmem => hgone (List.mem_filter.mp hmem).1⟩

theorem Sound.listed_of_releasing (h : s.Sound lost) (hreleasing : s.releasing? = some c) :
    c ∈ contextKeys s.contexts := by
  rcases h.release (releasing?_iff.mp hreleasing) with ⟨lease, after, hsource, -⟩
  exact mem_contextKeys.mpr ⟨_, hsource⟩

theorem Sound.gone_of_releasing (h : s.Sound lost) (hreleasing : s.releasing? = some c)
    (hstep : s.step = .active s') :
    c < s'.world.memory.next ∧ c ∉ contextKeys s'.contexts := by
  have hcontrol := releasing?_iff.mp hreleasing
  rcases h.release hcontrol with ⟨lease, after, -, hmove, hr, -⟩
  simp only [step, hcontrol, land, hmove] at hstep
  cases hstep
  rw [hr.memory, hr.contexts, contextKeys_filter]
  refine ⟨h.lt_next (h.listed_of_releasing hreleasing), ?_⟩
  intro hmem
  exact absurd rfl (of_decide_eq_true (List.mem_filter.mp hmem).2)

/-- A fiber has its lease from the step that has made it. -/
theorem Sound.makes_of_leaseAt {lease : Lease} (h : s.Sound lost) (hstep : s.step = .active s')
    (hlease : s'.leaseAt c = some lease) : s.leaseAt c = some lease ∨ s.Makes s' c lease := by
  cases (h.move hstep).1 with
  | stay ht =>
      rw [leaseAt_congr ht.running ht.contexts ht.lease] at hlease
      exact Or.inl hlease
  | switch need hd hthere hneed =>
      have hne := h.ne_running hthere hneed
      have hnot := hd.not_start hneed (h.parked _ _ hne hthere).1
      rw [leaseAt_hop _ _ _ _ h.listed hthere hne hd.lease rfl hnot] at hlease
      exact Or.inl hlease
  | answer reply hcontrol hprober =>
      rename_i prober query purpose a below
      have hne := h.ne_running hprober (show needOf _ = some .reply from rfl)
      have hkept : leaseOf s.stack = s.lease? := by simp [lease?, hcontrol]
      rw [leaseAt_hop _ _ (.calling (.probe query (some reply) purpose) a :: below) _ h.listed
        hprober hne hkept rfl (by simp)] at hlease
      exact Or.inl hlease
  | launch hl hnew =>
      rename_i w stack fiber record
      rw [leaseAt_launched w stack record h.listed hnew hl.lease] at hlease
      by_cases hc : c = fiber
      · right
        rw [if_pos hc, Option.some.injEq] at hlease
        subst hc
        have hafter : (s.launched w stack c record).stackOf c = some [.base .unborn] :=
          stackOf_running
        rcases h.alters hstep hafter with ⟨made, hmakes, -⟩ | ⟨old, hold, -⟩
        · have hsame := hmakes
          rcases hsame with ⟨spec, captures, moves, body, record', -, -, hmade, -, -, hcontrol⟩
          cases hcontrol
          rw [<- hlease, hmade]
          exact hmakes
        · rw [stackOf_of_ne (ne_running_of_new h.listed hnew)] at hold
          exact absurd (mem_contextKeys.mpr ⟨old, hold⟩) hnew
      · rw [if_neg hc] at hlease
        exact Or.inl hlease
  | call hcontrol hsource =>
      rw [leaseAt_topped hsource hcontrol] at hlease
      exact Or.inl hlease
  | release hcontrol hsource hr =>
      have hne := h.ne_running hsource (show needOf _ = some .remains from rfl)
      rw [hr.leaseAt hcontrol hne] at hlease
      split at hlease
      · cases hlease
      · exact Or.inl hlease

/-- A fiber that leaves has been made to leave by a step of its own. -/
theorem Sound.closes {stack : List Frame} {lease : Lease} {ending : Ending} (h : s.Sound lost)
    (hstep : s.step = .active s') (hstack : s'.stackOf c = some stack)
    (hstage : stageOf stack = some (.leaving lease ending)) :
    (exists old, s.stackOf c = some old ∧ stageOf old = some (.leaving lease ending)) ∨
      s.running = c ∧ s.Closes ending := by
  rcases h.alters hstep hstack with ⟨made, -, rfl⟩ | ⟨old, hold, halters⟩
  · cases hstage
  · cases halters with
    | same hcovers hsame => exact Or.inl ⟨old, hold, hsame.symm.trans hstage⟩
    | ends hc hcontrol hframe hover =>
        refine Or.inl ⟨old, hold, ?_⟩
        rw [hframe]
        cases hover <;> exact hstage
    | advances hc hbare hstage' hadvances =>
        rw [hstage, Option.some.injEq] at hstage'
        subst hstage'
        cases hadvances with
        | closed lease hlease hcloses => exact Or.inr ⟨hc.symm, hcloses⟩

end State

/-! ## Whole runs -/

/-- The stacks that were handed out in the given states, by their allocators. -/
def lentIn (past : List State) : List String := past.flatMap State.lends

/-- The stacks that came back in the given states, by their allocators. -/
def takenBackIn (past : List State) : List String :=
  past.flatMap fun t => t.restores ++ t.rejects

namespace Program.Reaches

variable {p : Program} {past : List State} {s : State}

/-- Each state of a run has come up with the states before it. -/
theorem earlier {later before : List State} {t : State} (h : p.Reaches past s)
    (hrun : s :: past = later ++ t :: before) : p.Reaches before t := by
  induction later generalizing past s with
  | nil =>
      cases hrun
      exact h
  | cons first later ih =>
      rw [List.cons_append, List.cons.injEq] at hrun
      cases h with
      | start => cases later <;> cases hrun.2
      | step hbefore hstep => exact ih hbefore hrun.2

theorem step_of_adjacent {before : List State} {t : State} (h : p.Reaches (t :: before) s) :
    p.Reaches before t ∧ t.step = .active s := by
  cases h with
  | step hbefore hstep => exact ⟨hbefore, hstep⟩

theorem gone (h : p.Reaches past s) {t : State} {c : ContextId} (ht : t ∈ past)
    (hreleasing : t.releasing? = some c) :
    c < s.world.memory.next ∧ c ∉ contextKeys s.contexts := by
  -- Numbers are given out in rising order: one that is given out and not in use stays out of use.
  induction h with
  | start => cases ht
  | step hbefore hstep ih =>
      rcases List.mem_cons.mp ht with rfl | hearlier
      · exact hbefore.sound.gone_of_releasing hreleasing hstep
      · rcases ih hearlier with ⟨hold, hgone⟩
        exact (hbefore.sound.move hstep).1.gone hold hgone

theorem released_once (h : p.Reaches past s) (c : ContextId) :
    past.countP (fun t => t.releasing? = some c) ≤ 1 := by
  induction h with
  | start => exact Nat.zero_le _
  | step hbefore hstep ih =>
      rename_i past before after
      rw [List.countP_cons]
      split
      · rename_i hreleasing
        have hreleasing := of_decide_eq_true hreleasing
        have hnone : past.countP (fun t => t.releasing? = some c) = 0 := by
          rw [List.countP_eq_zero]
          intro t ht hearlier
          have hgone := (hbefore.gone ht (of_decide_eq_true hearlier)).2
          exact hgone (hbefore.sound.listed_of_releasing hreleasing)
        exact Nat.le_of_eq (congrArg (· + 1) hnone)
      · exact ih

theorem ledger (h : p.Reaches past s) :
    s.world.ledger = ⟨(lentIn past).length - (takenBackIn past).length, takenBackIn past⟩ := by
  induction h with
  | start => rfl
  | step hbefore hstep ih =>
      rename_i past before after
      have hledger := before.ledger_step
      rw [hstep, ih] at hledger
      simp only [Config.world, Ledger.enter] at hledger
      rw [hledger]
      simp only [lentIn, takenBackIn, List.flatMap_cons, List.length_append, Ledger.mk.injEq,
        and_true]
      omega

/-- Each fiber has been made on the stack that it has, by a step of the run. -/
theorem made (h : p.Reaches past s) {c : ContextId} {lease : Lease}
    (hlease : s.leaseAt c = some lease) :
    exists t u, [t, u] <:+: s :: past ∧ u.Makes t c lease := by
  induction h with
  | start =>
      have hnone : p.start.leaseAt c = none := by
        by_cases hc : c = mainContext
        · simp [State.leaseAt, hc, Program.start, State.lease?, leaseOf]
        · have hne : (c == mainContext) = false := by simpa using hc
          simp [State.leaseAt, hc, Program.start, State.parked?, List.lookup_cons, hne]
      rw [hnone] at hlease
      cases hlease
  | step hbefore hstep ih =>
      rename_i past before after
      rcases hbefore.sound.makes_of_leaseAt hstep hlease with hold | hmakes
      · rcases ih hold with ⟨t, u, hrun, hmakes⟩
        exact ⟨t, u, hrun.trans (List.suffix_cons _ _).isInfix, hmakes⟩
      · exact ⟨after, before, ⟨[], past, rfl⟩, hmakes⟩

/-- A fiber that leaves has closed its body, or has been unwound, for the context it leaves for. -/
theorem closed (h : p.Reaches past s) {c : ContextId} {stack : List Frame} {lease : Lease}
    {ending : Ending} (hstack : s.stackOf c = some stack)
    (hstage : stageOf stack = some (.leaving lease ending)) :
    exists t, t ∈ past ∧ t.running = c ∧ t.Closes ending := by
  induction h generalizing stack with
  | start =>
      unfold State.stackOf at hstack
      split at hstack
      · cases hstack
        cases hstage
      · rename_i hc
        have hmain : c ≠ mainContext := hc
        have hne : (c == mainContext) = false := by simpa using hmain
        simp [State.parked?, Program.start, List.lookup_cons, hne] at hstack
  | step hbefore hstep ih =>
      rename_i past before after
      rcases hbefore.sound.closes hstep hstack hstage with
        ⟨old, hold, hstage'⟩ | ⟨hc, hcloses⟩
      · rcases ih hold hstage' with ⟨t, ht, hclosed⟩
        exact ⟨t, List.mem_cons_of_mem _ ht, hclosed⟩
      · exact ⟨before, List.mem_cons_self, hc, hcloses⟩

end Program.Reaches

/-- What is known, in any state of a run, of stacks that have been given back. -/
structure State.GivenBack (past : List State) (s : State) : Prop where
  /-- As many stacks are out as were handed out and have not come back. -/
  counted : s.world.liveStacks =
    (lentIn past).length - (s.world.log.filterMap LogEntry.returned?).length
  /-- No stack comes back but those of fibers that are over, and those too small for any fiber. -/
  logged : s.world.log.filterMap LogEntry.returned? = takenBackIn past
  once : forall c, past.countP (fun t => t.releasing? = some c) ≤ 1
  /-- Nothing runs on a stack that was given back. -/
  vacated : forall t c, t ∈ past -> t.releasing? = some c ->
    c ≠ s.running ∧ c ∉ contextKeys s.contexts
  /-- A fiber that is over has its stack given back at once. -/
  next : forall lease ending, s.control = .run -> s.stack = [.base (.leaving lease ending)] ->
    exists t r, s.step = .active t ∧ t.step = .active r ∧
      s.Bequeaths t r s.running lease ending
  /--
  A stack that is given back was left by a fiber that had come to an end, and goes to the allocator
  that the fiber was made with.
  -/
  handed : forall later before t u c, s :: past = later ++ t :: u :: before ->
    t.releasing? = some c -> exists r lease ending,
      t.step = .active r ∧ u.Bequeaths t r c lease ending ∧
        (exists v, v ∈ before ∧ v.running = c ∧ v.Closes ending) ∧
          exists w v, [w, v] <:+: u :: before ∧ v.Makes w c lease

/--
Each stack comes back once: from the context that takes over when its fiber is over, and before any
code runs there.
-/
theorem stack_given_back {p : Program} {past : List State} {s : State} (h : p.Reaches past s) :
    s.GivenBack past := by
  have hledger := h.ledger
  have hreturned : s.world.log.filterMap LogEntry.returned? = takenBackIn past :=
    congrArg Ledger.returned hledger
  constructor
  · rw [hreturned]
    exact congrArg Ledger.out hledger
  · exact hreturned
  · exact h.released_once
  · intro t c ht hreleasing
    have hgone := (h.gone ht hreleasing).2
    refine ⟨?_, hgone⟩
    intro heq
    exact hgone (heq ▸ mem_contextKeys.mpr ⟨[], h.sound.listed⟩)
  · exact fun lease ending hrun hstack => h.sound.leaves hrun hstack
  · intro later before t u c hrun hreleasing
    have hreach := h.earlier hrun
    rcases hreach.step_of_adjacent with ⟨hbefore, hstep⟩
    have hcontrol := State.releasing?_iff.mp hreleasing
    rcases hreach.sound.release hcontrol with ⟨lease', r, -, hrelease, -, -⟩
    have hstep' : t.step = .active r := by
      simp only [State.step, hcontrol, State.land, hrelease]
    rcases hbefore.sound.bequeaths hstep hcontrol hstep' with ⟨lease, ending, hbequeaths⟩
    rcases hbequeaths.leaves with ⟨rfl, hu, hstack⟩
    refine ⟨r, lease, ending, hstep', hbequeaths, ?_, ?_⟩
    · exact hbefore.closed State.stackOf_running (by rw [hstack]; rfl)
    · apply hbefore.made
      simp [State.lease?, hu, hstack, leaseOf, FiberStage.lease?]

/-- The outer of two fibers is abandoned by the main program, and so the inner one by the outer. -/
theorem stack_given_back_of_nestedFibers :
    exists past s t r lease, Program.nestedFibers.Reaches past s ∧ s.GivenBack past ∧
      s.Bequeaths t r 2 lease (.unwound mainContext) ∧ lease.owner = some "A" ∧
        s.world.liveStacks = 1 ∧ s.world.log.filterMap LogEntry.returned? = ["B"] := by
  have hafter : exists s lease, Config.after 38 (.active Program.nestedFibers.start) = .active s ∧
      s.control = .run ∧ s.running = 2 ∧
        s.stack = [.base (.leaving lease (.unwound mainContext))] ∧ lease.owner = some "A" ∧
          s.world.liveStacks = 1 ∧ s.world.log.filterMap LogEntry.returned? = ["B"] :=
    ⟨_, _, rfl, rfl, rfl, rfl, rfl, rfl, rfl⟩
  rcases hafter with ⟨s, lease, hs, hrun, hrunning, hstack, howner, hlive, hreturned⟩
  rcases Program.after_eq_active.mp hs with ⟨past, -, hreach⟩
  have hgiven := stack_given_back hreach
  rcases hgiven.next _ _ hrun hstack with ⟨t, r, -, -, hbequeaths⟩
  rw [hrunning] at hbequeaths
  exact ⟨past, s, t, r, lease, hreach, hgiven, hbequeaths, howner, hlive, hreturned⟩

end Fibers
