import Fibers.Proofs.Soundness

/-!
# Moves

In a sound state the kinds of steps are told together with the contexts that take part in them, and
the next state is sound again.  So all states of a run are.  A run ends for one of the reasons that
there are, and is never without a rule.
-/

namespace Fibers

namespace State

variable {s s' : State} {lost : List ContextId} {need : Need} {c : ContextId}

/-! ## All steps -/

/-- The steps of a sound state, with those whom control passes between. -/
inductive Move (s : State) : State -> Prop where
  | stay {s' : State} : s.Steady s' -> Move s s'
  | switch {w : World} {stack there : List Frame} {target : ContextId} {signal : Signal}
      (need : Need) :
      s.Departs w stack need target signal -> s.parked? target = some there ->
        needOf there = some need -> Move s (s.hop w stack target there signal)
  | answer {prober : ContextId} {query : Query} {purpose : ProbePurpose} {a : Activation}
      {below : List Frame} (reply : Reply) :
      s.control = .landed prober (.message .query) ->
        s.parked? prober = some (.calling (.probe query none purpose) a :: below) ->
        Move s (s.hop s.world s.stack prober (.calling (.probe query (some reply) purpose) a :: below)
          (.message .handover))
  | launch {w : World} {stack : List Frame} {fiber : ContextId} {record : Record} :
      s.Launches w stack fiber record -> fiber ∉ contextKeys s.contexts ->
        Move s (s.launched w stack fiber record)
  | call {source : ContextId} {host : Host} {f : Closure} {target : SlotName} {a : Activation}
      {below : List Frame} :
      s.control = .landed source .onTop ->
        s.parked? source = some (.calling (.resume host (some f) target) a :: below) ->
        Move s (s.topped source f (.calling (.resume host none target) a :: below))
  | release {source : ContextId} {lease : Lease} {s' : State} :
      s.control = .landed source .exit -> s.parked? source = some [.base (.exited lease)] ->
        s.Releases source lease s' -> Move s s'

/-! ## Holdings -/

def tokens (xs : List (Need × ContextId)) : List Holding := xs.map fun x => .token x.1 x.2

/-- A context that waits for a fiber to be gone is switched to from that fiber's end only. -/
theorem Departs.exits {w : World} {stack there : List Frame} {target : ContextId} {signal : Signal}
    {k : StackKind} (hd : s.Departs w stack .request target signal)
    (hneed : needOf there = some .request) (hthere : Stacked k there) : signal = .exit := by
  have hlands := hd.lands k there hneed hthere
  rcases hd.returns with ⟨own, -, hsignal⟩
  rcases needOf_request hneed with ⟨below, rfl⟩
  cases signal with
  | message m => cases m <;> simp [Lands, needOf, Signal.holdings] at hlands hsignal
  | exit => rfl
  | onTop | start record => simp [Lands, needOf] at hlands

/--
A move makes and does away with what its step does, and with tokens besides.  The token of a context
that waits in a drop is used up only where that context takes over.
-/
theorem Move.count_holdings (h : s.Sound lost) (hm : s.Move s') :
    exists used given : List (Need × ContextId),
      (forall x, s'.holdings.count x + s.gone.count x + (tokens used).count x =
        s.holdings.count x + s.made.count x + (tokens given).count x) ∧
      forall r, (.request, r) ∈ used -> s'.running = r ∧ s'.control = .landed s.running .exit := by
  cases hm with
  | stay ht =>
      refine ⟨[], [], ?_, by simp⟩
      intro x
      have hpool := ht.balance x
      simp only [holdings, ht.contexts, List.count_append]
      omega
  | switch need hd hthere hneed =>
      rename_i w stack there target signal
      have hne := h.ne_running hthere hneed
      rcases hd.returns with ⟨own, -, hsignal⟩
      refine ⟨[(need, target)], [(own, s.running)], ?_, ?_⟩
      · intro x
        have hcount := hd.count_holdings h.listed hthere hne hsignal x
        rw [hd.quiet.1]
        simpa [tokens] using hcount
      · intro r hr
        cases List.mem_singleton.mp hr
        exact ⟨rfl, congrArg _ (hd.exits hneed (h.parked _ _ hne hthere).1)⟩
  | answer reply hcontrol hprober =>
      rename_i prober query purpose a below
      have hne := h.ne_running hprober (show needOf _ = some .reply from rfl)
      refine ⟨[(.reply, prober)], [(.handle, s.running)], ?_, by simp⟩
      intro x
      have hhop := count_holdings_hop s.world s.stack
        (.calling (.probe query (some reply) purpose) a :: below) (.message .handover) h.listed
        hprober hne x
      rw [made_landed hcontrol, gone_landed hcontrol]
      simp only [holdings, pool, hcontrol, tokens, Control.holdings, Signal.holdings,
        stackHoldings_cons, Frame.holdings, Call.holdings, List.map_cons, List.map_nil,
        List.count_append, List.count_nil] at hhop ⊢
      omega
  | launch hl hnew =>
      refine ⟨[], [(.birth, s.running)], ?_, by simp⟩
      intro x
      have hcount := hl.count_holdings h.listed hnew x
      rw [hl.quiet.1]
      simpa [tokens] using hcount
  | call hcontrol hsource =>
      rename_i source host f target a below
      refine ⟨[(.call, source)], [(.handle, source)], ?_, by simp⟩
      intro x
      have hcount := count_holdings_topped hsource hcontrol x
      rw [made_landed hcontrol, gone_landed hcontrol]
      simpa [tokens] using hcount
  | release hcontrol hsource hr =>
      rename_i source lease
      refine ⟨[(.remains, source)], [], ?_, by simp⟩
      intro x
      have hcount := hr.count_holdings h.keys hcontrol hsource x
      rw [made_landed hcontrol, gone_landed hcontrol]
      simpa [tokens] using hcount

/-! ## Memory -/

theorem Move.memory_le (hm : s.Move s') : s.world.memory.next ≤ s'.world.memory.next := by
  cases hm with
  | stay ht => exact ht.memory
  | switch need hd => exact hd.memory
  | answer | call => exact Nat.le_refl _
  | launch hl => exact Nat.le_of_lt (Nat.lt_of_le_of_lt hl.memory.1 hl.memory.2)
  | release hcontrol hsource hr => exact Nat.le_of_eq (congrArg Memory.next hr.memory.symm)

/-! ## Soundness -/

theorem Parks.swallows {w : World} {stack : List Frame} {released : List Holding}
    (h : s.Parks w stack released) : s.swallows = [] := by
  have hgone := h.quiet.1
  simp only [gone, List.append_eq_nil_iff, List.map_eq_nil_iff] at hgone
  exact hgone.2

namespace Sound

theorem move (h : s.Sound lost) (hstep : s.step = .active s') :
    s.Move s' ∧ s'.Sound (s.swallows ++ lost) := by
  have hturn := h.turn
  generalize s.step = next at hstep hturn
  cases hturn with
  | stay ht =>
      cases hstep
      exact ⟨.stay ht, h.steady ht⟩
  | switch need hd =>
      rcases h.switch hd with ⟨there, hthere, hneed, hmove, hsound⟩
      rw [hmove] at hstep
      cases hstep
      rw [hd.swallows]
      exact ⟨.switch need hd hthere hneed, hsound⟩
  | answer hcontrol =>
      rcases h.answer hcontrol with ⟨query, reply, purpose, a, below, hprober, hmove, hsound⟩
      rw [hmove] at hstep
      cases hstep
      rw [swallows_landed hcontrol]
      exact ⟨.answer reply hcontrol hprober, hsound⟩
  | launch hl =>
      rcases h.launch hl with ⟨hnew, hmove, hsound⟩
      have hactive := hmove.symm.trans hstep
      cases hactive
      rw [hl.swallows]
      exact ⟨.launch hl hnew, hsound⟩
  | call hcontrol =>
      rcases h.call hcontrol with ⟨host, f, target, a, below, hsource, hmove, hsound⟩
      rw [hmove] at hstep
      cases hstep
      rw [swallows_landed hcontrol]
      exact ⟨.call hcontrol hsource, hsound⟩
  | release hcontrol =>
      rcases h.release hcontrol with ⟨lease, after, hsource, hmove, hr, hsound⟩
      rw [hmove] at hstep
      cases hstep
      rw [swallows_landed hcontrol]
      exact ⟨.release hcontrol hsource hr, hsound⟩
  | halt => cases hstep

/-- A run ends for one of the reasons that there are, and never for the lack of a rule. -/
theorem halts {outcome : Outcome} {w : World} (h : s.Sound lost)
    (hstep : s.step = .halted outcome w) : s.Ends outcome ∧ w = s.world := by
  have hturn := h.turn
  generalize s.step = next at hstep hturn
  cases hturn with
  | stay => cases hstep
  | switch need hd =>
      rcases h.switch hd with ⟨there, -, -, hmove, -⟩
      rw [hmove] at hstep
      cases hstep
  | answer hcontrol =>
      rcases h.answer hcontrol with ⟨query, reply, purpose, a, below, -, hmove, -⟩
      rw [hmove] at hstep
      cases hstep
  | launch hl =>
      have hhalted := (h.launch hl).2.1.symm.trans hstep
      cases hhalted
  | call hcontrol =>
      rcases h.call hcontrol with ⟨host, f, target, a, below, -, hmove, -⟩
      rw [hmove] at hstep
      cases hstep
  | release hcontrol =>
      rcases h.release hcontrol with ⟨lease, after, -, hmove, -⟩
      rw [hmove] at hstep
      cases hstep
  | halt hlegal =>
      cases hstep
      exact ⟨hlegal, rfl⟩

end Sound

end State

/-! ## Runs -/

/-- The requesters whose forced unwind was discarded in the past. -/
def lostIn (past : List State) : List ContextId := past.flatMap State.swallows

theorem Program.Reaches.sound {p : Program} {past : List State} {s : State}
    (h : p.Reaches past s) : s.Sound (lostIn past) := by
  induction h with
  | start => exact State.sound_start p
  | step _ hstep ih => exact (ih.move hstep).2

end Fibers
