import Fibers.Proofs.Giveback
import Fibers.Proofs.Termination

/-!
# Forsaken contexts

A context that abandons a fiber waits until the forced unwind that it has asked for is through with
the fiber.  The unwind carries the only token by which the waiting context can be reached.  So if a
block discards the unwind, the context is lost, whatever the others do: it stays parked as it is,
with all that it owns.  If it is that of the main program, the run cannot come to its end.
-/

namespace Fibers

/-! ## Guards on a stack -/

def Holding.label? : Holding -> Option String
  | guard label => some label
  | token _ _ => none

/-- The guards that the frames of a stack hold. -/
def guardsOn (stack : List Frame) : List String := (stackHoldings stack).filterMap Holding.label?

theorem count_filterMap_label (xs : List Holding) (label : String) :
    (xs.filterMap Holding.label?).count label = xs.count (.guard label) := by
  induction xs with
  | nil => rfl
  | cons x rest ih =>
      cases x with
      | token need c =>
          rw [List.filterMap_cons_none rfl, ih, List.count_cons_of_ne (by simp)]
      | guard other =>
          have hlabel : Holding.label? (.guard other) = some other := rfl
          rw [List.filterMap_cons_some hlabel, List.count_cons, List.count_cons, ih]
          simp

namespace State

variable {s s' t : State} {lost : List ContextId} {c : ContextId} {stack : List Frame}

theorem count_guardsOn_le (hstack : s.parked? c = some stack) (label : String) :
    (guardsOn stack).count label ≤ s.holdings.count (.guard label) := by
  rw [guardsOn, count_filterMap_label, holdings, List.count_append]
  apply Nat.le_add_left_of_le
  have hmem : stackHoldings stack ∈ s.contexts.map fun entry => stackHoldings entry.2 :=
    List.mem_map.mpr ⟨(c, stack), mem_of_lookup hstack, rfl⟩
  exact (List.sublist_flatten_of_mem hmem).count_le _

/-! ## The unwind that is discarded -/

/-- A forced unwind is discarded by a block of the code that it has come to, which then goes on. -/
theorem step_of_swallows (h : c ∈ s.swallows) :
    exists a code outer below,
      s.stack = .discarding [] (some (.forced c)) :: .code a :: below ∧
        a.blocks = ⟨.attempt true, code, []⟩ :: outer ∧
        s.step = s.go (s.world.note a.label .swallowed)
          (.code { a with flow := .onward, blocks := outer } :: below) := by
  unfold swallows at h
  split at h
  · rename_i requester a below hcontrol hstack
    split at h
    · rename_i code outer hresult hblocks
      rcases List.mem_singleton.mp h with rfl
      refine ⟨a, code, outer, below, hstack, hblocks, ?_⟩
      simp [step, hcontrol, run, hstack, runDiscarding, unwindInto, unwindCode, hresult,
        Handle.entries, hblocks]
    · cases h
  · cases h

/-- The requester waits in a drop, and its unwind is the only one that is under way for it. -/
theorem Sound.requester_of_swallows (h : s.Sound lost) (hswallows : c ∈ s.swallows) :
    exists below, s.parked? c = some (.dropping :: below) ∧ s.requestsOf c = 1 := by
  rcases step_of_swallows hswallows with ⟨a, code, outer, below, hstack, -, -⟩
  have hmem : .token .request c ∈ s.holdings := by
    simp [holdings, pool, hstack, Frame.holdings, Unwind.holdings]
  have hpos := List.count_pos_iff.mpr hmem
  rcases h.parked_of_token hpos with ⟨stack, hparked, hneed⟩
  rcases needOf_request hneed with ⟨below, rfl⟩
  refine ⟨below, hparked, ?_⟩
  have hcount := h.count_token hparked .request
  rw [if_pos hneed] at hcount
  exact Nat.le_antisymm (Nat.le.intro hcount) hpos

/-! ## What is left -/

/-- A context whose forced unwind was discarded waits in a drop, and nothing leads to it. -/
theorem Sound.waits_of_lost (h : s.Sound lost) (hc : c ∈ lost) :
    (exists below, s.parked? c = some (.dropping :: below)) ∧ c ≠ s.running ∧
      forall need, .token need c ∉ s.holdings := by
  have hbalance := h.balance .request c
  have hpos := List.count_pos_iff.mpr hc
  rw [count_lost, h.count_awaited] at hbalance
  have hneed : s.need? c = some .request := by
    split at hbalance
    · assumption
    · omega
  rcases Option.bind_eq_some_iff.mp hneed with ⟨stack, hstack, hrequest⟩
  rcases needOf_request hrequest with ⟨below, rfl⟩
  refine ⟨⟨below, hstack⟩, h.ne_running hstack hrequest, ?_⟩
  intro need hmem
  have htoken := List.count_pos_iff.mpr hmem
  have hcount := h.count_token hstack need
  by_cases hsame : need = .request
  · subst hsame
    rw [count_lost, if_pos hrequest] at hcount
    omega
  · have hother : needOf (.dropping :: below) ≠ some need := by
      rw [hrequest, ne_eq, Option.some.injEq]
      exact Ne.symm hsame
    rw [if_neg hother] at hcount
    omega

/-- Nothing happens to a context that waits in a drop while others run. -/
theorem Sound.parked_of_dropping {below : List Frame} (h : s.Sound lost)
    (hstep : s.step = .active s') (hparked : s.parked? c = some (.dropping :: below))
    (hc : c ≠ s.running) (hc' : c ≠ s'.running) : s'.parked? c = some (.dropping :: below) := by
  have hstack : s.stackOf c = some (.dropping :: below) := (stackOf_of_ne hc).trans hparked
  rcases h.stays hstep hstack (by simp) with ⟨stack', hstack'⟩
  rcases h.touches hstep hc hstack' with ⟨hnone, -⟩ | ⟨stack, hold, htouches⟩
  · rw [hnone] at hstack
    cases hstack
  · cases hold.symm.trans hstack
    cases htouches
    exact (stackOf_of_ne hc').symm.trans hstack'

end State

/--
A context has been left alone with its stack for good, as can be told from a state of the run and
those before it.
-/
structure State.Forsaken (past : List State) (s : State) (c : ContextId) (stack : List Frame) :
    Prop where
  /-- It is parked as it was.  What is done and what is dropped is on the stack of another. -/
  parked : s.parked? c = some stack ∧ c ≠ s.running
  /-- Neither a handle names it, nor anything else by which control could come to it. -/
  unnamed : s.handlesOf c = 0 ∧ forall need, .token need c ∉ s.holdings
  /-- Its guards are among those made, besides all that have been dropped. -/
  guards : (droppedIn past ++ guardsOn stack).Subperm (madeIn past) ∧
    (guardsOn stack).length ≤ s.world.liveGuards
  /-- Its stack has never been given back, and is on the books as in use. -/
  kept : (forall r, r ∈ s :: past -> r.releasing? ≠ some c) ∧
    forall lease, leaseOf stack = some lease -> lease.stack ∈ s.world.registry.ranges ∧
      (lease.owner.isSome -> 0 < s.world.liveStacks)

namespace Program

/--
A small program to look at: the fiber that the main program abandons goes on after the unwind, and
comes to its end without a context to go on with.
-/
def deafFiber : Program where
  hosts := []
  main :=
    [.create ⟨.own "f", "F", none, .heap "A" 4096⟩ ["g"] []
        [.attempt true [.resume ⟨.own "caller", false, none, .own "caller", .keep⟩]],
      .guard "m" [],
      .resume ⟨.own "f", false, none, .own "f", .keep⟩,
      .drop (.own "f")]

variable {p : Program} {past later before : List State} {s t : State} {c : ContextId}
  {stack below : List Frame}

/-- From each of its states a run comes to a last one. -/
theorem Reaches.last (h : p.Reaches past s) :
    exists later last outcome, p.Reaches (later ++ past) last ∧
      last.step = .halted outcome last.world := by
  rcases h.ends with ⟨n, outcome, w, hafter⟩
  induction n generalizing past s with
  | zero => cases hafter
  | succ n ih =>
      cases hstep : s.step with
      | halted outcome' w' =>
          rcases h.sound.halts hstep with ⟨-, rfl⟩
          exact ⟨[], s, outcome', h, hstep⟩
      | active s' =>
          rw [Config.after, hstep] at hafter
          rcases ih (h.step hstep) hafter with ⟨later, last, outcome', hreach, hlast⟩
          refine ⟨later ++ [s], last, outcome', ?_, hlast⟩
          rwa [List.append_assoc]

theorem mem_lostIn (later : List State) (h : c ∈ t.swallows) : c ∈ lostIn (later ++ t :: before) :=
  List.mem_flatMap.mpr ⟨t, by simp, h⟩

/-- The requester of a discarded unwind is parked in all later states as it was before. -/
theorem Reaches.parked_of_swallows (hbefore : p.Reaches before t) (hswallow : c ∈ t.swallows)
    (hparked : t.parked? c = some (.dropping :: below)) (h : p.Reaches (later ++ t :: before) s) :
    s.parked? c = some (.dropping :: below) := by
  induction later generalizing s with
  | nil =>
      have hstep := h.step_of_adjacent.2
      have hc : c ≠ t.running := hbefore.sound.ne_running hparked rfl
      have hc' := (h.sound.waits_of_lost (mem_lostIn [] hswallow)).2.1
      exact hbefore.sound.parked_of_dropping hstep hparked hc hc'
  | cons r later ih =>
      rcases h.step_of_adjacent with ⟨hreach, hstep⟩
      have hc := (hreach.sound.waits_of_lost (mem_lostIn later hswallow)).2.1
      have hc' := (h.sound.waits_of_lost (mem_lostIn (r :: later) hswallow)).2.1
      exact hreach.sound.parked_of_dropping hstep (ih hreach) hc hc'

theorem Reaches.forsaken (hbefore : p.Reaches before t) (hswallow : c ∈ t.swallows)
    (hparked : t.parked? c = some (.dropping :: below)) (h : p.Reaches (later ++ t :: before) s) :
    s.Forsaken (later ++ t :: before) c (.dropping :: below) := by
  have hsound := h.sound
  have haudit := h.audited
  have hhere := hbefore.parked_of_swallows hswallow hparked h
  rcases hsound.waits_of_lost (mem_lostIn later hswallow) with ⟨-, hc, hnone⟩
  have hsubperm : (droppedIn (later ++ t :: before) ++ guardsOn (.dropping :: below)).Subperm
      (madeIn (later ++ t :: before)) := by
    rw [List.subperm_ext_iff]
    intro label _
    rw [List.count_append, haudit.held]
    exact Nat.add_le_add_left (State.count_guardsOn_le hhere label) _
  constructor
  · exact ⟨hhere, hc⟩
  · exact ⟨List.count_eq_zero.mpr (hnone .handle), hnone⟩
  · refine ⟨hsubperm, ?_⟩
    have hlength := hsubperm.length_le
    rw [List.length_append] at hlength
    rw [haudit.guards]
    omega
  · constructor
    · intro r hr hreleasing
      rcases List.mem_cons.mp hr with rfl | hpast
      · apply hnone .remains
        simp [State.holdings, State.pool, State.releasing?_iff.mp hreleasing, Control.holdings,
          Signal.holdings]
      · exact (h.gone hpast hreleasing).2 (mem_contextKeys.mpr ⟨_, hhere⟩)
    · intro lease hlease
      have hleaseAt : s.leaseAt c = some lease := by
        rw [State.leaseAt_of_ne hc, hhere]
        exact hlease
      refine ⟨hsound.housed.mem_ranges hleaseAt, ?_⟩
      intro howner
      rw [haudit.lent]
      have hpos : 0 < s.stacksInUse := by
        rw [State.stacksInUse, List.countP_pos_iff]
        refine ⟨c, mem_contextKeys.mpr ⟨_, hhere⟩, ?_⟩
        rw [State.borrows, hleaseAt]
        exact howner
      exact Int.natCast_pos.mpr hpos

/-- What a discarded forced unwind comes to, for the context that had asked for it. -/
structure Forsakes (p : Program) (before : List State) (t : State) (c : ContextId)
    (stack : List Frame) : Prop where
  /-- It waits for the fiber to be gone, and this unwind is all that could tell it so. -/
  waits : t.parked? c = some stack ∧ State.InDropOf stack ∧ t.requestsOf c = 1
  /-- The fiber goes on behind the block that has discarded the unwind. -/
  discards : exists s label, t.step = .active s ∧ s.running = t.running ∧
    s.world = t.world.note label .swallowed
  /-- From then on the context is forsaken. -/
  forsaken : forall later s, p.Reaches (later ++ t :: before) s ->
    s.Forsaken (later ++ t :: before) c stack
  /-- So it is at the end, and its guards and its stack are missing. -/
  missing : (guardsOn stack).length ≤ p.run.liveGuards ∧
    forall lease, leaseOf stack = some lease -> lease.owner.isSome -> 0 < p.run.liveStacks
  /-- Without the main program there is no end but to abort. -/
  fatal : c = mainContext -> exists cause, p.run.outcome = .aborted cause

end Program

/-- Without the main program the run can only end by being aborted. -/
theorem State.Ends.aborted {s : State} {lost : List ContextId} {outcome : Outcome}
    (hends : s.Ends outcome) (h : s.Sound lost) (hmain : mainContext ≠ s.running) :
    exists cause, outcome = .aborted cause := by
  cases hends with
  | drained hcontrol hstack =>
      have hstands := h.stands
      simp only [State.Stands, hcontrol, hstack] at hstands
      rcases hstands with ⟨⟨hnative, -⟩, -⟩
      rw [homeOf, if_neg (Ne.symm hmain)] at hnative
      cases hnative
  | doubleUnwind | bodyPanicked | onTopPanicked | emptyResult | nativeStackUnwound =>
      exact ⟨_, rfl⟩

/--
A context is lost if the forced unwind that it has asked for is discarded: nothing names it any
more, nothing runs on its stack, and what is there stays there.  If it is the main program's, the
run is aborted.
-/
theorem swallowed_requester_lost {p : Program} {before : List State} {t : State} {c : ContextId}
    (h : p.Reaches before t) (hswallow : c ∈ t.swallows) :
    exists stack, p.Forsakes before t c stack := by
  rcases h.sound.requester_of_swallows hswallow with ⟨below, hparked, hrequests⟩
  rcases State.step_of_swallows hswallow with ⟨a, code, outer, rest, -, -, hstep⟩
  have hforsaken : forall later s, p.Reaches (later ++ t :: before) s ->
      s.Forsaken (later ++ t :: before) c (.dropping :: below) :=
    fun later s hreach => h.forsaken hswallow hparked hreach
  rcases (h.step hstep).last with ⟨later, last, outcome, hreach, hlast⟩
  have hlost := hforsaken later last hreach
  have hrun := hreach.run_eq hlast
  refine ⟨.dropping :: below, ?_⟩
  constructor
  · exact ⟨hparked, ⟨below, rfl⟩, hrequests⟩
  · exact ⟨_, a.label, hstep, rfl, rfl⟩
  · exact hforsaken
  · rw [hrun]
    exact ⟨hlost.guards.2, fun lease hlease howner => (hlost.kept.2 lease hlease).2 howner⟩
  · rintro rfl
    rw [hrun]
    exact (hreach.sound.halts hlast).1.aborted hreach.sound hlost.parked.2

/-- The main program abandons a fiber that discards the unwind, and is lost with its guard. -/
theorem swallowed_requester_lost_of_deafFiber :
    exists before t stack, Program.deafFiber.Reaches before t ∧ t.swallows = [mainContext] ∧
      guardsOn stack = ["m"] ∧ Program.deafFiber.Forsakes before t mainContext stack := by
  have hafter : exists t, Config.after 16 (.active Program.deafFiber.start) = .active t ∧
      t.swallows = [mainContext] ∧ (t.parked? mainContext).map guardsOn = some ["m"] :=
    ⟨_, rfl, rfl, by decide +kernel⟩
  rcases hafter with ⟨t, ht, hswallows, hguards⟩
  rcases Program.after_eq_active.mp ht with ⟨before, -, hreach⟩
  have hmain : mainContext ∈ t.swallows := hswallows ▸ List.mem_singleton_self _
  rcases swallowed_requester_lost hreach hmain with ⟨stack, hforsakes⟩
  rw [hforsakes.waits.1, Option.map_some, Option.some.injEq] at hguards
  exact ⟨before, t, stack, hreach, hswallows, hguards, hforsakes⟩

end Fibers
