import Fibers.Proofs.Contexts
import Fibers.Proofs.Housing
import Fibers.Proofs.Reach
import Fibers.Proofs.Turn.Step

/-!
# Sound states

In a sound state each parked context waits for something, and the tokens that are held anywhere are
just those by which the parked contexts can be reached.  All states of a run are sound, up to the
requesters whose forced unwind was discarded: these wait for something that will not come.

As a consequence a run is never without a rule.
-/

namespace Fibers

namespace State

def need? (s : State) (c : ContextId) : Option Need := (s.parked? c).bind needOf

def leaseAt (s : State) (c : ContextId) : Option Lease :=
  if c = s.running then s.lease? else (s.parked? c).bind leaseOf

/-- The invariant of a run in which forced unwinds of the given requesters were discarded. -/
structure Sound (lost : List ContextId) (s : State) : Prop where
  keys : (contextKeys s.contexts).Nodup
  listed : s.parked? s.running = some []
  stands : s.Stands
  parked : forall c stack, c ≠ s.running -> s.parked? c = some stack ->
    Stacked (homeOf c) stack ∧ needOf stack ≠ none
  balance : forall need c,
    s.holdings.count (.token need c) +
        (lost.map (Holding.token .request)).count (.token need c) =
      s.awaited.count (.token need c)
  housed : Housed s.leaseAt s.world.registry s.world.address s.world.memory.next
  numbers : mainContext < s.world.memory.next

variable {s s' : State} {lost : List ContextId} {need own : Need} {c d : ContextId}

@[simp] theorem leaseAt_self : s.leaseAt s.running = s.lease? := if_pos rfl

theorem leaseAt_of_ne (h : c ≠ s.running) : s.leaseAt c = (s.parked? c).bind leaseOf := if_neg h

/-! ## What is awaited -/

theorem count_awaitedAt {stack : List Frame} :
    (awaitedAt d stack).count (.token need c) =
      if d = c ∧ needOf stack = some need then 1 else 0 := by
  cases hneed : needOf stack with
  | none => simp [awaitedAt, hneed]
  | some n =>
      simp only [awaitedAt, hneed, Option.map_some, Option.toList_some, List.count_singleton,
        beq_iff_eq, Holding.token.injEq, Option.some.injEq]
      grind

theorem count_awaitedBy {contexts : List (ContextId × List Frame)}
    (hkeys : (contextKeys contexts).Nodup) :
    (awaitedBy contexts).count (.token need c) =
      if (contexts.lookup c).bind needOf = some need then 1 else 0 := by
  induction contexts with
  | nil => rfl
  | cons entry rest ih =>
      rcases entry with ⟨d, stack⟩
      rcases List.nodup_cons.mp hkeys with ⟨hfirst, hrest⟩
      have htail := ih hrest
      simp only [awaitedBy, List.flatMap_cons, List.count_append, count_awaitedAt] at htail ⊢
      rw [htail, List.lookup_cons]
      by_cases hdc : d = c
      · subst hdc
        have hnone : rest.lookup d = none := by
          cases hlookup : rest.lookup d with
          | none => rfl
          | some there => exact absurd (mem_contextKeys.mpr ⟨there, hlookup⟩) hfirst
        simp [hnone]
      · have hne : (c == d) = false := by simpa using Ne.symm hdc
        simp [hdc, hne]

namespace Sound

theorem count_awaited (h : s.Sound lost) :
    s.awaited.count (.token need c) = if s.need? c = some need then 1 else 0 :=
  count_awaitedBy h.keys

/-- A token that is held leads to a context that waits for it. -/
theorem parked_of_token (h : s.Sound lost) (htoken : 0 < s.holdings.count (.token need c)) :
    exists stack, s.parked? c = some stack ∧ needOf stack = some need := by
  have hbalance := h.balance need c
  rw [h.count_awaited] at hbalance
  split at hbalance
  · rename_i hneed
    rcases Option.bind_eq_some_iff.mp hneed with ⟨stack, hstack, hneed⟩
    exact ⟨stack, hstack, hneed⟩
  · omega

theorem ne_running {stack : List Frame} (h : s.Sound lost) (hstack : s.parked? c = some stack)
    (hneed : needOf stack = some need) : c ≠ s.running := by
  intro heq
  subst heq
  rw [h.listed, Option.some.injEq] at hstack
  subst hstack
  cases hneed

end Sound

/-! ## The kind of a stack -/

namespace Sound

theorem leaseAt_of_parked {stack : List Frame} (h : s.Sound lost) (hc : c ≠ mainContext)
    (hne : c ≠ s.running) (hstack : s.parked? c = some stack) :
    exists l, s.leaseAt c = some l := by
  have hstacked := (h.parked c stack hne hstack).1
  rw [homeOf, if_neg hc] at hstacked
  rcases hstacked.leaseOf_eq_some with ⟨l, hl⟩
  refine ⟨l, ?_⟩
  rw [leaseAt_of_ne hne, hstack]
  exact hl

theorem leaseAt_running (h : s.Sound lost) (hc : s.running ≠ mainContext) :
    exists l, s.leaseAt s.running = some l := by
  rw [leaseAt_self]
  rcases h.stands.stacked with hstacked | ⟨-, source, r, hcontrol⟩
  · rw [homeOf, if_neg hc] at hstacked
    unfold lease?
    split
    · rename_i source record hcontrol
      have hlands := h.stands
      simp only [Stands, hcontrol] at hlands
      rcases hlands with ⟨-, -, r, rfl, -⟩
      exact ⟨r.lease, rfl⟩
    · exact hstacked.leaseOf_eq_some
  · exact ⟨r.lease, by simp [lease?, hcontrol]⟩

theorem kind (h : s.Sound lost) : s.kind = homeOf s.running :=
  h.housed.kindAt h.leaseAt_running

/-- Whatever is listed is the main program's context or a fiber with a stack of its own. -/
theorem lt_next (h : s.Sound lost) (hc : c ∈ contextKeys s.contexts) :
    c < s.world.memory.next := by
  by_cases hmain : c = mainContext
  · rw [hmain]
    exact h.numbers
  · have hlease : exists l, s.leaseAt c = some l := by
      by_cases hrunning : c = s.running
      · subst hrunning
        exact h.leaseAt_running hmain
      · rcases mem_contextKeys.mp hc with ⟨stack, hstack⟩
        exact h.leaseAt_of_parked hmain hrunning hstack
    rcases hlease with ⟨l, hl⟩
    exact (h.housed.numbered c l hl).2

theorem turn (h : s.Sound lost) : s.Turn s.step := turn_step h.stands h.kind

end Sound

/-! ## The first state -/

theorem sound_start (p : Program) : p.start.Sound [] where
  keys := by simp [contextKeys, Program.start]
  listed := rfl
  stands := ⟨⟨trivial, rfl, rfl⟩, trivial⟩
  parked := by
    intro c stack hc hstack
    have hmain : c ≠ mainContext := hc
    have hne : (c == mainContext) = false := by simpa using hmain
    simp [parked?, Program.start, List.lookup_cons, hne] at hstack
  balance := by
    intro need c
    have hnone : p.start.holdings = [] := by
      simp [holdings, pool, parkedHoldings, Program.start, World.holdings, Control.holdings,
        Frame.holdings, Activation.ofCode, Activation.holdings, Block.holdings]
    rw [hnone]
    rfl
  housed := by
    have hlease : p.start.leaseAt = fun _ => none := by
      funext c
      by_cases hc : c = mainContext
      · simp [leaseAt, hc, Program.start, lease?, leaseOf]
      · have hne : (c == mainContext) = false := by simpa using hc
        simp [leaseAt, hc, Program.start, parked?, List.lookup_cons, hne]
    rw [hlease]
    exact Housed.none
  numbers := Nat.zero_lt_one

/-! ## Steps that keep to one context -/

theorem count_made : s.made.count (.token need c) = 0 := by
  rw [List.count_eq_zero]
  simp [made]

theorem count_gone : s.gone.count (.token need c) =
    (s.swallows.map (Holding.token .request)).count (.token need c) := by
  have hguards : (s.guardsDropped.map Holding.guard).count (.token need c) = 0 := by
    rw [List.count_eq_zero]
    simp
  rw [gone, List.count_append, hguards, Nat.zero_add]

theorem leaseAt_congr (hrunning : s'.running = s.running) (hcontexts : s'.contexts = s.contexts)
    (hlease : s'.lease? = s.lease?) : s'.leaseAt = s.leaseAt := by
  funext c
  simp only [leaseAt, parked?, hrunning, hcontexts, hlease]

theorem Sound.steady (h : s.Sound lost) (ht : s.Steady s') : s'.Sound (s.swallows ++ lost) where
  keys := by
    rw [ht.contexts]
    exact h.keys
  listed := by
    rw [parked?, ht.contexts, ht.running]
    exact h.listed
  stands := ht.stands
  parked := by
    intro c stack hc hstack
    rw [parked?, ht.contexts] at hstack
    rw [ht.running] at hc
    exact h.parked c stack hc hstack
  balance := by
    intro need c
    have hbefore := h.balance need c
    have hpool := ht.balance (.token need c)
    rw [count_made, count_gone] at hpool
    simp only [holdings, awaited, ht.contexts, List.map_append, List.count_append] at hbefore ⊢
    omega
  housed := by
    have hregistry : s'.world.registry = s.world.registry := congrArg Books.registry ht.books
    have haddress : s'.world.address = s.world.address := congrArg Books.address ht.books
    rw [leaseAt_congr ht.running ht.contexts ht.lease, hregistry, haddress]
    exact h.housed.mono ht.memory fun _ => rfl
  numbers := Nat.lt_of_lt_of_le h.numbers ht.memory

/-! ## Switches -/

theorem count_parkedHoldings {contexts : List (ContextId × List Frame)} {old : List Frame}
    {x : Holding} (stack : List Frame) (h : contexts.lookup c = some old) :
    (parkedHoldings (replaceStack c stack contexts)).count x + (stackHoldings old).count x =
      (parkedHoldings contexts).count x + (stackHoldings stack).count x :=
  count_replaceStack (f := fun entry => stackHoldings entry.2) h

theorem count_awaitedBy_replace {contexts : List (ContextId × List Frame)}
    {old : List Frame} {x : Holding} (stack : List Frame) (h : contexts.lookup c = some old) :
    (awaitedBy (replaceStack c stack contexts)).count x + (awaitedAt c old).count x =
      (awaitedBy contexts).count x + (awaitedAt c stack).count x :=
  count_replaceStack (f := fun entry => awaitedAt entry.1 entry.2) h

/-- The state in which another context has taken over. -/
def hop (s : State) (w : World) (stack : List Frame) (target : ContextId) (there : List Frame)
    (signal : Signal) : State where
  world := w
  running := target
  stack := there
  contexts := replaceStack target [] (replaceStack s.running stack s.contexts)
  control := .landed s.running signal

theorem transfer_eq_hop {w : World} {stack there : List Frame} {target : ContextId}
    {signal : Signal} (hthere : s.parked? target = some there) (hne : there ≠ []) :
    s.transfer w stack target signal = .active (s.hop w stack target there signal) := by
  cases there with
  | nil => exact absurd rfl hne
  | cons top below => simp only [transfer, hthere, hop]

theorem needOf_ne_nil {stack : List Frame} (h : needOf stack = some need) : stack ≠ [] := by
  intro heq
  subst heq
  cases h

section Hop

variable {there : List Frame} {target : ContextId} (w : World) (stack there' : List Frame)
  (signal : Signal) (hlisted : s.parked? s.running = some []) (hthere : s.parked? target = some there)
  (hne : target ≠ s.running)

include hne hthere

theorem lookup_hop : (replaceStack s.running stack s.contexts).lookup target = some there := by
  rw [lookup_replaceStack_of_ne hne]
  exact hthere

include hlisted

theorem parked?_hop (c : ContextId) : (s.hop w stack target there' signal).parked? c =
    if c = target then some [] else if c = s.running then some stack else s.parked? c := by
  by_cases hc : c = target
  · rw [if_pos hc, hc]
    exact lookup_replaceStack_self (lookup_hop stack hthere hne)
  · rw [if_neg hc]
    by_cases hrunning : c = s.running
    · rw [if_pos hrunning, hrunning, parked?, hop, lookup_replaceStack_of_ne hne.symm]
      exact lookup_replaceStack_self hlisted
    · rw [if_neg hrunning, parked?, hop, lookup_replaceStack_of_ne hc,
        lookup_replaceStack_of_ne hrunning]
      rfl

theorem count_holdings_hop (x : Holding) :
    (s.hop w stack target there' signal).holdings.count x + (stackHoldings there).count x =
      w.holdings.count x + (stackHoldings there').count x +
        (signal.holdings s.running).count x + (stackHoldings stack).count x +
        (parkedHoldings s.contexts).count x := by
  have hfrom := count_parkedHoldings (x := x) stack hlisted
  have hto := count_parkedHoldings (x := x) [] (lookup_hop stack hthere hne)
  simp only [holdings, pool, hop, Control.holdings, stackHoldings_nil, List.count_append,
    List.count_nil] at hfrom hto ⊢
  omega

theorem count_awaited_hop (x : Holding) :
    (s.hop w stack target there' signal).awaited.count x + (awaitedAt target there).count x =
      s.awaited.count x + (awaitedAt s.running stack).count x := by
  have hfrom := count_awaitedBy_replace (x := x) stack hlisted
  have hto := count_awaitedBy_replace (x := x) [] (lookup_hop stack hthere hne)
  have hnil : forall d, awaitedAt d [] = [] := fun _ => rfl
  simp only [awaited, hop, hnil, List.count_nil] at hfrom hto ⊢
  omega

theorem leaseAt_hop (hlease : leaseOf stack = s.lease?) (hlease' : leaseOf there' = leaseOf there)
    (hnot : forall record, signal ≠ .start record) :
    (s.hop w stack target there' signal).leaseAt = s.leaseAt := by
  funext c
  by_cases hc : c = target
  · have hlanded : (s.hop w stack target there' signal).lease? = leaseOf there' := by
      cases signal <;> first | rfl | exact absurd rfl (hnot _)
    have htarget : s.leaseAt target = leaseOf there := by
      rw [leaseAt_of_ne hne, hthere]
      rfl
    rw [hc, htarget, <- hlease', <- hlanded]
    exact leaseAt_self
  · have hct : c ≠ (s.hop w stack target there' signal).running := hc
    rw [leaseAt_of_ne hct, parked?_hop w stack there' signal hlisted hthere hne, if_neg hc]
    by_cases hrunning : c = s.running
    · rw [if_pos hrunning, hrunning, leaseAt_self]
      exact hlease
    · rw [if_neg hrunning, leaseAt_of_ne hrunning]

end Hop

/--
Another context takes over that was waiting for it.  Its token is used up, and the context that is
left behind gets one.
-/
theorem Sound.hop {w : World} {stack there there' : List Frame} {target : ContextId}
    {signal : Signal} (h : s.Sound lost) (hthere : s.parked? target = some there)
    (hneed : needOf there = some need) (hnext : s.world.memory.next ≤ w.memory.next)
    (hregistry : w.registry = s.world.registry) (haddress : w.address = s.world.address)
    (hbalance : forall need' c, w.holdings.count (.token need' c) +
        (stackHoldings stack).count (.token need' c) +
        [Holding.token need target].count (.token need' c) =
      s.pool.count (.token need' c))
    (hstacked : Stacked (homeOf s.running) stack) (hown : needOf stack = some own)
    (hsignal : signal.holdings s.running = [.token own s.running])
    (hlands : Lands (homeOf target) signal there') (hlease : leaseOf stack = s.lease?)
    (hholdings' : stackHoldings there' = stackHoldings there)
    (hlease' : leaseOf there' = leaseOf there) (hnot : forall record, signal ≠ .start record) :
    (s.hop w stack target there' signal).Sound lost := by
  have hne := h.ne_running hthere hneed
  have hparked := parked?_hop w stack there' signal h.listed hthere hne
  constructor
  · simp only [State.hop, contextKeys_replaceStack]
    exact h.keys
  · rw [hparked]
    exact if_pos rfl
  · exact hlands
  · intro c stack' hc hstack'
    have htarget : c ≠ target := hc
    rw [hparked, if_neg htarget] at hstack'
    by_cases hrunning : c = s.running
    · rw [if_pos hrunning, Option.some.injEq] at hstack'
      rw [hrunning, <- hstack']
      exact ⟨hstacked, by simp [hown]⟩
    · rw [if_neg hrunning] at hstack'
      exact h.parked c stack' hrunning hstack'
  · intro need' c
    have hbefore := h.balance need' c
    have hpool := hbalance need' c
    have hholdings := count_holdings_hop w stack there' signal h.listed hthere hne (.token need' c)
    have hawaited := count_awaited_hop w stack there' signal h.listed hthere hne (.token need' c)
    have hat : awaitedAt s.running stack = [.token own s.running] := by simp [awaitedAt, hown]
    have hthereAt : awaitedAt target there = [.token need target] := by simp [awaitedAt, hneed]
    rw [hholdings', hsignal] at hholdings
    rw [hat, hthereAt] at hawaited
    rw [holdings, List.count_append] at hbefore
    omega
  · rw [leaseAt_hop w stack there' signal h.listed hthere hne hlease hlease' hnot,
      show (s.hop w stack target there' signal).world.registry = s.world.registry from hregistry,
      show (s.hop w stack target there' signal).world.address = s.world.address from haddress]
    exact h.housed.mono hnext fun _ => rfl
  · exact Nat.lt_of_lt_of_le h.numbers hnext

theorem Departs.count_holdings {w : World} {stack there : List Frame} {target : ContextId}
    {signal : Signal} (hd : s.Departs w stack need target signal)
    (hlisted : s.parked? s.running = some []) (hthere : s.parked? target = some there)
    (hne : target ≠ s.running) (hsignal : signal.holdings s.running = [.token own s.running])
    (x : Holding) :
    (s.hop w stack target there signal).holdings.count x + [Holding.token need target].count x =
      s.holdings.count x + s.made.count x + [Holding.token own s.running].count x := by
  have hpool := hd.balance x
  have hhop := count_holdings_hop w stack there signal hlisted hthere hne x
  rw [hsignal] at hhop
  simp only [holdings, List.count_append] at hpool hhop ⊢
  omega

/-- No switch between parked contexts brings a record along. -/
theorem Departs.not_start {w : World} {stack there : List Frame} {target : ContextId}
    {signal : Signal} {k : StackKind} (hd : s.Departs w stack need target signal)
    (hneed : needOf there = some need) (hthere : Stacked k there) (record : Option Record) :
    signal ≠ .start record := by
  intro heq
  subst heq
  have hlands := hd.lands k there hneed hthere
  rw [hlands.2.1] at hneed
  cases hneed

theorem Sound.switch {w : World} {stack : List Frame} {target : ContextId} {signal : Signal}
    (h : s.Sound lost) (hd : s.Departs w stack need target signal) :
    exists there, s.parked? target = some there ∧ needOf there = some need ∧
      s.transfer w stack target signal = .active (s.hop w stack target there signal) ∧
      (s.hop w stack target there signal).Sound lost := by
  have hbalance : forall need' c, w.holdings.count (.token need' c) +
      (stackHoldings stack).count (.token need' c) +
      [Holding.token need target].count (.token need' c) = s.pool.count (.token need' c) := by
    intro need' c
    rw [hd.balance, count_made, Nat.add_zero]
  have htoken : 0 < s.holdings.count (.token need target) := by
    have hpool := hbalance need target
    rw [List.count_cons_self] at hpool
    rw [holdings, List.count_append]
    omega
  rcases h.parked_of_token htoken with ⟨there, hthere, hneed⟩
  rcases hd.returns with ⟨own, hown, hsignal⟩
  have hne := h.ne_running hthere hneed
  have hstacked := (h.parked target there hne hthere).1
  have hlands := hd.lands _ there hneed hstacked
  have hnot := hd.not_start hneed hstacked
  have hregistry : w.registry = s.world.registry := congrArg Books.registry hd.books
  have haddress : w.address = s.world.address := congrArg Books.address hd.books
  refine ⟨there, hthere, hneed, transfer_eq_hop hthere (needOf_ne_nil hneed), ?_⟩
  exact h.hop hthere hneed hd.memory hregistry haddress hbalance hd.stacked hown hsignal hlands
    hd.lease rfl rfl hnot

/-! ## Answers -/

/-- A target can be given another stack just before it takes over. -/
theorem transfer_replaceStack {w : World} {stack there there' : List Frame} {target : ContextId}
    {signal : Signal} (hthere : s.parked? target = some there) (hne : target ≠ s.running)
    (hnil : there' ≠ []) :
    { s with contexts := replaceStack target there' s.contexts }.transfer w stack target signal =
      .active (s.hop w stack target there' signal) := by
  have hparked : { s with contexts := replaceStack target there' s.contexts }.parked? target =
      some there' := lookup_replaceStack_self hthere
  rw [transfer_eq_hop hparked hnil]
  simp only [hop]
  rw [replaceStack_comm hne.symm, replaceStack_replaceStack]

theorem Sound.answer {prober : ContextId} {binding : Affinity} (h : s.Sound lost)
    (hcontrol : s.control = .landed prober (.message .query)) :
    exists query reply purpose a below,
      s.parked? prober = some (.calling (.probe query none purpose) a :: below) ∧
      s.answer prober binding = .active (s.hop s.world s.stack prober
        (.calling (.probe query (some reply) purpose) a :: below) (.message .handover)) ∧
      (s.hop s.world s.stack prober (.calling (.probe query (some reply) purpose) a :: below)
        (.message .handover)).Sound lost := by
  have hstands := h.stands
  simp only [Stands, hcontrol] at hstands
  have htoken : 0 < s.holdings.count (.token .reply prober) := by
    rw [List.count_pos_iff]
    simp [holdings, pool, hcontrol, Control.holdings, Signal.holdings]
  rcases h.parked_of_token htoken with ⟨there, hthere, hneed⟩
  rcases needOf_reply hneed with ⟨query, purpose, a, below, rfl⟩
  have hne := h.ne_running hthere hneed
  have hstacked := (h.parked prober _ hne hthere).1
  obtain ⟨reply, hreply, hanswer⟩ : exists reply, reply.query = query ∧
      s.answer prober binding = .active (s.hop s.world s.stack prober
        (.calling (.probe query (some reply) purpose) a :: below) (.message .handover)) := by
    cases query with
    | affinity =>
        refine ⟨.affinity binding, rfl, ?_⟩
        simp only [State.answer, hthere]
        exact transfer_replaceStack hthere hne (List.cons_ne_nil _ _)
    | stackKind =>
        refine ⟨.stackKind s.kind, rfl, ?_⟩
        simp only [State.answer, hthere]
        exact transfer_replaceStack hthere hne (List.cons_ne_nil _ _)
  refine ⟨query, reply, purpose, a, below, hthere, hanswer, ?_⟩
  refine h.hop hthere hneed (Nat.le_refl _) rfl rfl ?_ hstands.1 hstands.2 rfl ?_ ?_ rfl rfl ?_
  · intro need' c
    simp only [pool, hcontrol, Control.holdings, Signal.holdings, List.count_append]
  · refine ⟨⟨⟨hstacked.1.1, ?_⟩, hstacked.2⟩, trivial⟩
    intro r hsame
    rcases hsame with ⟨⟩
    exact hreply
  · simp [lease?, hcontrol]
  · intro record hsignal
    cases hsignal

/-! ## New fibers -/

/-- The state before a new fiber takes over, with the fiber among the contexts. -/
def grown (s : State) (fiber : ContextId) : State :=
  { s with contexts := (fiber, [.base .unborn]) :: s.contexts }

/-- The state in which a new fiber takes over. -/
def launched (s : State) (w : World) (stack : List Frame) (fiber : ContextId) (record : Record) :
    State :=
  (s.grown fiber).hop w stack fiber [.base .unborn] (.start (some record))

section Launch

variable {fiber : ContextId} (w : World) (stack : List Frame) (record : Record)
  (hlisted : s.parked? s.running = some []) (hnew : fiber ∉ contextKeys s.contexts)

theorem parked?_grown (hc : c ≠ fiber) : (s.grown fiber).parked? c = s.parked? c := by
  have hlookup : (c == fiber) = false := by simpa using hc
  simp only [grown, parked?, List.lookup_cons, hlookup]

include hlisted hnew

theorem ne_running_of_new : fiber ≠ s.running := by
  intro heq
  subst heq
  exact hnew (mem_contextKeys.mpr ⟨[], hlisted⟩)

theorem listed_grown : (s.grown fiber).parked? (s.grown fiber).running = some [] :=
  (parked?_grown (ne_running_of_new hlisted hnew).symm).trans hlisted

theorem parked?_launched (c : ContextId) : (s.launched w stack fiber record).parked? c =
    if c = fiber then some [] else if c = s.running then some stack else s.parked? c := by
  have hne := ne_running_of_new hlisted hnew
  have hgrown := parked?_hop w stack [.base .unborn] (.start (some record))
    (listed_grown hlisted hnew) List.lookup_cons_self hne c
  rw [launched, hgrown]
  by_cases hc : c = fiber
  · rw [if_pos hc, if_pos hc]
  · rw [if_neg hc, if_neg hc, parked?_grown hc]
    rfl

theorem leaseAt_launched (hlease : leaseOf stack = s.lease?) (c : ContextId) :
    (s.launched w stack fiber record).leaseAt c =
      if c = fiber then some record.lease else s.leaseAt c := by
  by_cases hc : c = fiber
  · rw [if_pos hc, hc]
    exact leaseAt_self
  · have hct : c ≠ (s.launched w stack fiber record).running := hc
    rw [if_neg hc, leaseAt_of_ne hct, parked?_launched w stack record hlisted hnew, if_neg hc]
    by_cases hrunning : c = s.running
    · rw [if_pos hrunning, hrunning, leaseAt_self]
      exact hlease
    · rw [if_neg hrunning, leaseAt_of_ne hrunning]

end Launch

/-- A new fiber takes over its record, and a claim for the context that has made it. -/
theorem Launches.count_holdings {w : World} {stack : List Frame} {fiber : ContextId}
    {record : Record} (hl : s.Launches w stack fiber record)
    (hlisted : s.parked? s.running = some []) (hnew : fiber ∉ contextKeys s.contexts)
    (x : Holding) :
    (s.launched w stack fiber record).holdings.count x =
      s.holdings.count x + s.made.count x + [Holding.token .birth s.running].count x := by
  have hpool := hl.balance x
  have hne := ne_running_of_new hlisted hnew
  have hhop := count_holdings_hop w stack [.base .unborn] (.start (some record))
    (listed_grown hlisted hnew) List.lookup_cons_self hne x
  have hgrown : parkedHoldings (s.grown fiber).contexts = parkedHoldings s.contexts := rfl
  have hsignal : (Signal.start (some record)).holdings (s.grown fiber).running =
      [.token .birth s.running] ++ record.holdings := by
    simp [Signal.holdings, grown]
  rw [hgrown, hsignal] at hhop
  rw [launched]
  simp only [holdings, List.count_append] at hpool hhop ⊢
  omega

theorem Sound.launch {w : World} {stack : List Frame} {fiber : ContextId} {record : Record}
    (h : s.Sound lost) (hl : s.Launches w stack fiber record) :
    fiber ∉ contextKeys s.contexts ∧
      (s.grown fiber).transfer w stack fiber (.start (some record)) =
        .active (s.launched w stack fiber record) ∧
      (s.launched w stack fiber record).Sound lost := by
  have hnew : fiber ∉ contextKeys s.contexts := by
    intro hmem
    exact Nat.not_lt.mpr hl.memory.1 (h.lt_next hmem)
  have hne := ne_running_of_new h.listed hnew
  have hmain : fiber ≠ mainContext :=
    Ne.symm (Nat.ne_of_lt (Nat.lt_of_lt_of_le h.numbers hl.memory.1))
  have hthere : (s.grown fiber).parked? fiber = some [.base .unborn] := List.lookup_cons_self
  have hparked := parked?_launched w stack record h.listed hnew
  have hleaseAt := leaseAt_launched w stack record h.listed hnew hl.lease
  refine ⟨hnew, transfer_eq_hop hthere (List.cons_ne_nil _ _), ?_⟩
  constructor
  · simp only [launched, State.hop, grown, contextKeys_replaceStack]
    exact List.nodup_cons.mpr ⟨hnew, h.keys⟩
  · rw [hparked]
    exact if_pos rfl
  · exact ⟨if_neg hmain, rfl, record, rfl, hl.formed⟩
  · intro c stack' hc hstack'
    have hct : c ≠ fiber := hc
    rw [hparked, if_neg hct] at hstack'
    by_cases hrunning : c = s.running
    · rw [if_pos hrunning, Option.some.injEq] at hstack'
      rw [hrunning, <- hstack']
      exact ⟨hl.stacked, by simp [hl.waits]⟩
    · rw [if_neg hrunning] at hstack'
      exact h.parked c stack' hrunning hstack'
  · intro need c
    have hbefore := h.balance need c
    have hholdings := hl.count_holdings h.listed hnew (.token need c)
    have hawaited := count_awaited_hop w stack [.base .unborn] (.start (some record))
      (listed_grown h.listed hnew) hthere hne (.token need c)
    have hat : awaitedAt (s.grown fiber).running stack = [.token .birth s.running] := by
      simp [awaitedAt, hl.waits, grown]
    have hthereAt : awaitedAt fiber [.base .unborn] = [] := rfl
    have hgrownAwaited : (s.grown fiber).awaited = s.awaited := rfl
    rw [hat, hthereAt, hgrownAwaited] at hawaited
    rw [launched] at hholdings ⊢
    simp only [count_made, List.count_nil] at hholdings hawaited
    omega
  · rw [show (s.launched w stack fiber record).world.registry =
      s.world.registry.insert record.lease.stack from hl.registry]
    apply h.housed.launch h.numbers hl.memory hl.page hl.apart hl.placed hl.address
    · rw [hleaseAt]
      exact if_pos rfl
    · intro d hd
      rw [hleaseAt]
      exact if_neg hd
  · exact Nat.lt_trans h.numbers (Nat.lt_of_le_of_lt hl.memory.1 hl.memory.2)

/-! ## Functions on top -/

/-- The state in which a function runs on top of what was parked here. -/
def topped (s : State) (source : ContextId) (f : Closure) (waiting : List Frame) : State :=
  { s with
    stack := .code (f.activation (.live source)) :: .onTop source :: s.stack
    contexts := replaceStack source waiting s.contexts
    control := .run }

theorem holdings_activation {f : Closure} {h : Handle} :
    (f.activation h).holdings = h.holdings ++ entryHoldings f.captured := by
  simp [Closure.activation, Activation.holdings, Block.holdings, Entry.holdings]

section Call

variable {source : ContextId} {host : Host} {f : Closure} {target : SlotName} {a : Activation}
  {below : List Frame}
  (hsource : s.parked? source = some (.calling (.resume host (some f) target) a :: below))

include hsource

theorem parked?_topped (c : ContextId) :
    (s.topped source f (.calling (.resume host none target) a :: below)).parked? c =
      if c = source then some (.calling (.resume host none target) a :: below)
      else s.parked? c := by
  by_cases hc : c = source
  · rw [if_pos hc, hc]
    exact lookup_replaceStack_self hsource
  · rw [if_neg hc]
    exact lookup_replaceStack_of_ne hc

theorem leaseAt_topped (hcontrol : s.control = .landed source .onTop) :
    (s.topped source f (.calling (.resume host none target) a :: below)).leaseAt = s.leaseAt := by
  funext c
  by_cases hrunning : c = s.running
  · rw [hrunning, leaseAt_self]
    simp [leaseAt, topped, lease?, hcontrol, leaseOf]
  · have hct : c ≠ (s.topped source f
      (.calling (.resume host none target) a :: below)).running := hrunning
    rw [leaseAt_of_ne hct, leaseAt_of_ne hrunning, parked?_topped hsource]
    by_cases hc : c = source
    · rw [if_pos hc, hc, hsource]
      rfl
    · rw [if_neg hc]

/-- The function gets a handle to the context that has called it. -/
theorem count_holdings_topped (hcontrol : s.control = .landed source .onTop) (x : Holding) :
    (s.topped source f (.calling (.resume host none target) a :: below)).holdings.count x +
        [Holding.token .call source].count x =
      s.holdings.count x + [Holding.token .handle source].count x := by
  have hparked := count_parkedHoldings (x := x)
    (.calling (.resume host none target) a :: below) hsource
  simp only [holdings, pool, topped, hcontrol, Control.holdings, Signal.holdings,
    stackHoldings_cons, Frame.holdings, Call.holdings, Closure.leftover, holdings_activation,
    Handle.holdings, entryHoldings_nil, List.count_append, List.count_nil] at hparked ⊢
  omega

end Call

theorem Sound.call {source : ContextId} (h : s.Sound lost)
    (hcontrol : s.control = .landed source .onTop) :
    exists host f target a below,
      s.parked? source = some (.calling (.resume host (some f) target) a :: below) ∧
      s.callOnTop source =
        .active (s.topped source f (.calling (.resume host none target) a :: below)) ∧
      (s.topped source f (.calling (.resume host none target) a :: below)).Sound lost := by
  have hstands := h.stands
  simp only [Stands, hcontrol] at hstands
  have htoken : 0 < s.holdings.count (.token .call source) := by
    rw [List.count_pos_iff]
    simp [holdings, pool, hcontrol, Control.holdings, Signal.holdings]
  rcases h.parked_of_token htoken with ⟨there, hthere, hneed⟩
  rcases needOf_call hneed with ⟨host, f, target, a, below, rfl⟩
  have hne := h.ne_running hthere hneed
  have hstacked := (h.parked source _ hne hthere).1
  refine ⟨host, f, target, a, below, hthere, ?_, ?_⟩
  · simp only [callOnTop, hthere, topped]
  have hparked := parked?_topped hthere
  constructor
  · simp only [topped, contextKeys_replaceStack]
    exact h.keys
  · rw [hparked]
    exact (if_neg (Ne.symm hne)).trans h.listed
  · exact ⟨⟨trivial, hstands.2, hstands.1⟩, trivial⟩
  · intro c stack hc hstack
    rw [hparked] at hstack
    by_cases hsource : c = source
    · rw [if_pos hsource, Option.some.injEq] at hstack
      rw [<- hstack, hsource]
      exact ⟨⟨trivial, hstacked.2⟩, by simp [needOf]⟩
    · rw [if_neg hsource] at hstack
      exact h.parked c stack hc hstack
  · intro need c
    have hbefore := h.balance need c
    have hholdings := count_holdings_topped hthere hcontrol (.token need c)
    have hawaited := count_awaitedBy_replace (x := .token need c)
      (.calling (.resume host none target) a :: below) hthere
    simp only [awaitedAt, needOf, Option.map_some, Option.toList_some] at hawaited
    simp only [awaited, topped] at hbefore hholdings hawaited ⊢
    omega
  · rw [leaseAt_topped hthere hcontrol]
    exact h.housed
  · exact h.numbers

/-! ## Stacks that are given back -/

/-- A context is gone, and its stack is back where it came from. -/
structure Releases (s : State) (source : ContextId) (lease : Lease) (s' : State) : Prop where
  running : s'.running = s.running
  stack : s'.stack = s.stack
  contexts : s'.contexts = s.contexts.filter (fun entry => entry.1 ≠ source)
  control : s'.control = .landed source (.message .farewell)
  globals : s'.world.globals = s.world.globals
  memory : s'.world.memory = s.world.memory
  registry : s'.world.registry = s.world.registry.erase lease.stack
  address : s'.world.address = s.world.address
  guards : s'.world.liveGuards = s.world.liveGuards
  lent : s'.world.liveStacks = s.world.liveStacks - if lease.owner.isSome then 1 else 0
  dropped : s'.world.books.dropped = s.world.books.dropped

theorem release_eq {source : ContextId} {lease : Lease} {below : List Frame}
    (h : s.parked? source = some (.base (.exited lease) :: below)) :
    exists s', s.release source = .active s' ∧ s.Releases source lease s' := by
  simp only [release, h]
  cases howner : lease.owner with
  | none =>
      exact ⟨_, rfl, ⟨rfl, rfl, rfl, rfl, rfl, rfl, rfl, rfl, rfl, by simp [howner]; rfl, rfl⟩⟩
  | some label =>
      exact ⟨_, rfl, ⟨rfl, rfl, rfl, rfl, rfl, rfl, rfl, rfl, rfl, by simp [howner]; rfl, rfl⟩⟩

namespace Releases

variable {source : ContextId} {lease : Lease} (hr : s.Releases source lease s')

include hr

theorem parked? (c : ContextId) : s'.parked? c = if c = source then none else s.parked? c := by
  rw [State.parked?, hr.contexts]
  by_cases hc : c = source
  · rw [if_pos hc, hc]
    exact lookup_filter_self
  · rw [if_neg hc]
    exact lookup_filter_of_ne hc

theorem leaseAt (hcontrol : s.control = .landed source .exit) (hne : source ≠ s.running)
    (c : ContextId) : s'.leaseAt c = if c = source then none else s.leaseAt c := by
  by_cases hrunning : c = s.running
  · have hsame : s'.lease? = s.lease? := by
      simp only [lease?, hr.control, hcontrol, hr.stack]
    rw [hrunning, if_neg hne.symm, leaseAt_self, <- hsame, <- hr.running, leaseAt_self]
  · have hct : c ≠ s'.running := by
      rw [hr.running]
      exact hrunning
    rw [leaseAt_of_ne hct, leaseAt_of_ne hrunning, hr.parked?]
    by_cases hc : c = source
    · rw [if_pos hc, if_pos hc]
      rfl
    · rw [if_neg hc, if_neg hc]

theorem count_holdings (hkeys : (contextKeys s.contexts).Nodup)
    (hcontrol : s.control = .landed source .exit)
    (hsource : s.parked? source = some [.base (.exited lease)]) (x : Holding) :
    s'.holdings.count x + [Holding.token .remains source].count x = s.holdings.count x := by
  have hparked := count_filter_ne (x := x) (f := fun entry => stackHoldings entry.2) hkeys hsource
  simp only [holdings, pool, parkedHoldings, hr.contexts, hr.control, hr.stack, World.holdings,
    hr.globals, hcontrol, Control.holdings, Signal.holdings, stackHoldings_cons, stackHoldings_nil,
    Frame.holdings, FiberStage.holdings, List.count_append, List.count_nil] at hparked ⊢
  omega

end Releases

theorem Sound.release {source : ContextId} (h : s.Sound lost)
    (hcontrol : s.control = .landed source .exit) :
    exists lease s', s.parked? source = some [.base (.exited lease)] ∧
      s.release source = .active s' ∧ s.Releases source lease s' ∧ s'.Sound lost := by
  have hstands := h.stands
  simp only [Stands, hcontrol] at hstands
  have htoken : 0 < s.holdings.count (.token .remains source) := by
    rw [List.count_pos_iff]
    simp [holdings, pool, hcontrol, Control.holdings, Signal.holdings]
  rcases h.parked_of_token htoken with ⟨there, hthere, hneed⟩
  rcases needOf_remains hneed with ⟨lease, below, rfl⟩
  have hne := h.ne_running hthere hneed
  have hstacked := (h.parked source _ hne hthere).1
  rcases hstacked with ⟨hfiber, -, rfl⟩
  rcases release_eq hthere with ⟨s', hrelease, hr⟩
  refine ⟨lease, s', hthere, hrelease, hr, ?_⟩
  constructor
  · rw [hr.contexts, contextKeys_filter]
    exact h.keys.filter _
  · rw [hr.running, hr.parked?, if_neg hne.symm]
    exact h.listed
  · simp only [Stands, hr.control, hr.stack, hr.running]
    exact hstands
  · intro c stack hc hstack
    rw [hr.parked?] at hstack
    rw [hr.running] at hc
    by_cases hsource : c = source
    · rw [if_pos hsource] at hstack
      cases hstack
    · rw [if_neg hsource] at hstack
      exact h.parked c stack hc hstack
  · intro need c
    have hbefore := h.balance need c
    have hholdings := hr.count_holdings h.keys hcontrol hthere (.token need c)
    have hawaited := count_filter_ne (x := Holding.token need c)
      (f := fun entry => awaitedAt entry.1 entry.2) h.keys hthere
    have hat : awaitedAt source [.base (.exited lease)] = [.token .remains source] := rfl
    rw [hat] at hawaited
    simp only [awaited, awaitedBy, hr.contexts] at hbefore hawaited ⊢
    omega
  · rw [hr.registry, hr.address, hr.memory]
    have hlease : s.leaseAt source = some lease := by
      rw [leaseAt_of_ne hne, hthere]
      rfl
    apply h.housed.release hlease
    · rw [hr.leaseAt hcontrol hne]
      exact if_pos rfl
    · intro d hd
      rw [hr.leaseAt hcontrol hne]
      exact if_neg hd
  · rw [hr.memory]
    exact h.numbers

/-! ## Other stacks -/

/-- The running context may have any stack that is in order, and stands for the same. -/
theorem Sound.restack {stack : List Frame} (h : s.Sound lost) (hrun : s.control = .run)
    (hstacked : Stacked (homeOf s.running) stack) (hactive : Active stack)
    (hholdings : stackHoldings stack = stackHoldings s.stack)
    (hlease : leaseOf stack = leaseOf s.stack) : Sound lost { s with stack := stack } where
  keys := h.keys
  listed := h.listed
  stands := by
    simp only [Stands, hrun]
    exact ⟨hstacked, hactive⟩
  parked := h.parked
  balance := by
    have hsame : State.holdings { s with stack := stack } = s.holdings := by
      simp only [State.holdings, pool, hholdings]
    rw [hsame]
    exact h.balance
  housed := by
    have hsame : State.leaseAt { s with stack := stack } = s.leaseAt := by
      funext c
      simp only [leaseAt, State.lease?, hrun, hlease]
      rfl
    rw [hsame]
    exact h.housed
  numbers := h.numbers

end State

end Fibers
