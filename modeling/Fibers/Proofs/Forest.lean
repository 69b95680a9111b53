import Fibers.Proofs.Accounts
import Fibers.Proofs.Ownership
import Fibers.Proofs.Upkeep
import Mathlib.Logic.Relation

/-!
# Nothing leaks

A context owns those whose tokens it holds.  As long as no forced unwind is discarded, all contexts
are owned in the end by the running one or by a shared slot, and ownership is a forest: each context
has one owner at most, and none owns itself.

A switch turns the forest about, since the context that takes over then owns the one that it was
owned by.  What was owned through the new owner of all the rest has to be reached another way, and
this is where no token may be lost.

At the end of a run the shared slots are empty.  Then nothing is left.
-/

namespace Fibers

open Relation (ReflTransGen TransGen)

namespace State

variable {s s' : State} {lost : List ContextId} {need own : Need} {c d : ContextId}

/-! ## Owners -/

/-- What a context holds: its stack, and if it runs what has come with a switch. -/
def heldBy (s : State) (c : ContextId) : List Holding :=
  if c = s.running then stackHoldings s.stack ++ s.control.holdings
  else stackHoldings ((s.parked? c).getD [])

/-- A context holds the token of another. -/
def Owns (s : State) (c d : ContextId) : Prop := exists need, .token need d ∈ s.heldBy c

/-- The running context, and those that are held in shared slots. -/
def IsRoot (s : State) (c : ContextId) : Prop :=
  c = s.running ∨ exists need, .token need c ∈ s.world.holdings

theorem heldBy_running : s.heldBy s.running = stackHoldings s.stack ++ s.control.holdings :=
  if_pos rfl

theorem heldBy_parked {stack : List Frame} (hc : c ≠ s.running) (h : s.parked? c = some stack) :
    s.heldBy c = stackHoldings stack := by
  rw [heldBy, if_neg hc, h]
  rfl

/-! ### Each token is in one place -/

theorem count_parked_le (contexts : List (ContextId × List Frame)) (c : ContextId) (x : Holding) :
    (stackHoldings ((contexts.lookup c).getD [])).count x ≤ (parkedHoldings contexts).count x := by
  cases h : contexts.lookup c with
  | none => exact Nat.zero_le _
  | some stack =>
      have hrest := count_parkedHoldings (x := x) [] h
      rw [stackHoldings_nil, List.count_nil] at hrest
      rw [Option.getD_some]
      omega

theorem count_two_parked_le (contexts : List (ContextId × List Frame)) (x : Holding)
    (hcd : c ≠ d) :
    (stackHoldings ((contexts.lookup c).getD [])).count x +
        (stackHoldings ((contexts.lookup d).getD [])).count x ≤
      (parkedHoldings contexts).count x := by
  cases h : contexts.lookup c with
  | none =>
      have hle := count_parked_le contexts d x
      simpa using hle
  | some stack =>
      have hrest := count_parkedHoldings (x := x) [] h
      have hle := count_parked_le (replaceStack c [] contexts) d x
      rw [lookup_replaceStack_of_ne hcd.symm] at hle
      rw [stackHoldings_nil, List.count_nil] at hrest
      rw [Option.getD_some]
      omega

theorem count_shared_add_heldBy (s : State) (c : ContextId) (x : Holding) :
    s.world.holdings.count x + (s.heldBy c).count x ≤ s.holdings.count x := by
  have hle := count_parked_le s.contexts c x
  simp only [holdings, pool, heldBy, parked?, List.count_append]
  split
  · rw [List.count_append]
    omega
  · omega

theorem count_heldBy_add_heldBy (s : State) (x : Holding) (hcd : c ≠ d) :
    (s.heldBy c).count x + (s.heldBy d).count x ≤ s.holdings.count x := by
  have hpair := count_two_parked_le s.contexts x hcd
  have hfirst := count_parked_le s.contexts c x
  have hsecond := count_parked_le s.contexts d x
  simp only [holdings, pool, heldBy, parked?, List.count_append]
  split
  · rw [if_neg (by rintro rfl; exact hcd ‹_›), List.count_append]
    omega
  · split
    · rw [List.count_append]
      omega
    · omega

namespace Sound

theorem count_le_one (h : s.Sound lost) (need : Need) (c : ContextId) :
    s.holdings.count (.token need c) ≤ 1 := by
  have hbalance := h.balance need c
  rw [h.count_awaited] at hbalance
  split at hbalance
  · omega
  · omega

/-- There are no two tokens of one context, not even for different needs. -/
theorem need_unique (h : s.Sound lost) (hneed : .token need c ∈ s.holdings)
    (hown : .token own c ∈ s.holdings) : need = own := by
  rcases h.parked_of_token (List.count_pos_iff.mpr hneed) with ⟨stack, hstack, hwaits⟩
  rcases h.parked_of_token (List.count_pos_iff.mpr hown) with ⟨stack', hstack', hwaits'⟩
  rw [hstack, Option.some.injEq] at hstack'
  subst hstack'
  exact Option.some.inj (hwaits.symm.trans hwaits')

theorem mem_holdings_of_heldBy (hheld : .token need d ∈ s.heldBy c) :
    .token need d ∈ s.holdings := by
  have hpos := List.count_pos_iff.mpr hheld
  have hle := count_shared_add_heldBy s c (.token need d)
  exact List.count_pos_iff.mp (by omega)

theorem mem_holdings_of_shared (hshared : .token need d ∈ s.world.holdings) :
    .token need d ∈ s.holdings := by
  simp only [holdings, pool, List.mem_append]
  exact Or.inl (Or.inl (Or.inl hshared))

/-- What is owned waits to be let go on, so it does not run. -/
theorem ne_running_of_token (h : s.Sound lost) (hmem : .token need c ∈ s.holdings) :
    c ≠ s.running := by
  rcases h.parked_of_token (List.count_pos_iff.mpr hmem) with ⟨stack, hstack, hneed⟩
  exact h.ne_running hstack hneed

theorem owner_unique {e : ContextId} (h : s.Sound lost) (hc : s.Owns c e) (hd : s.Owns d e) :
    c = d := by
  rcases hc with ⟨need, hneed⟩
  rcases hd with ⟨own, hown⟩
  rw [<- h.need_unique (mem_holdings_of_heldBy hneed) (mem_holdings_of_heldBy hown)] at hown
  apply Decidable.byContradiction
  intro hcd
  have hsum := count_heldBy_add_heldBy s (.token need e) hcd
  have hone := h.count_le_one need e
  have hfirst := List.count_pos_iff.mpr hneed
  have hsecond := List.count_pos_iff.mpr hown
  omega

theorem not_owns_root (h : s.Sound lost) (hroot : s.IsRoot d) : ¬ s.Owns c d := by
  intro howns
  rcases howns with ⟨need, hneed⟩
  rcases hroot with rfl | ⟨own, hown⟩
  · exact h.ne_running_of_token (mem_holdings_of_heldBy hneed) rfl
  · rw [<- h.need_unique (mem_holdings_of_heldBy hneed) (mem_holdings_of_shared hown)] at hown
    have hsum := count_shared_add_heldBy s c (.token need d)
    have hone := h.count_le_one need d
    have hfirst := List.count_pos_iff.mpr hneed
    have hsecond := List.count_pos_iff.mpr hown
    omega

end Sound

/-! ## Contexts that can be reached -/

/-- What is reached from the running context and the shared slots, one stack after another. -/
inductive Reached (s : State) : ContextId -> Prop where
  | pool (need : Need) {c : ContextId} : .token need c ∈ s.pool -> Reached s c
  | held (need : Need) {c d : ContextId} {stack : List Frame} :
      Reached s c -> s.parked? c = some stack -> .token need d ∈ stackHoldings stack -> Reached s d

def AllReached (s : State) : Prop :=
  forall c, c ∈ contextKeys s.contexts -> c ≠ s.running -> s.Reached c

/-- Contexts stay in reach if all that held them does, one context apart. -/
theorem Reached.transfer {t : ContextId} (h : s.Reached c)
    (hpool : forall need c, .token need c ∈ s.pool -> c = t ∨ s'.Reached c)
    (hheld : forall c d stack need, s.parked? c = some stack ->
      .token need d ∈ stackHoldings stack -> c = t ∨ s'.Reached c -> d = t ∨ s'.Reached d) :
    c = t ∨ s'.Reached c := by
  induction h with
  | pool need hmem => exact hpool _ _ hmem
  | held need _ hstack hmem ih => exact hheld _ _ _ _ hstack hmem ih

/-! ### Moves -/

theorem Parks.mem {w : World} {stack : List Frame} {released : List Holding}
    (h : s.Parks w stack released) (hmem : .token need c ∈ s.pool) :
    .token need c ∈ w.holdings ∨ .token need c ∈ stackHoldings stack ∨
      .token need c ∈ released := by
  have hpos := List.count_pos_iff.mpr hmem
  have hbalance := h.balance (.token need c)
  rw [count_made] at hbalance
  have hall : 0 < (w.holdings ++ (stackHoldings stack ++ released)).count (.token need c) := by
    rw [List.count_append, List.count_append]
    omega
  simpa [List.mem_append] using List.count_pos_iff.mp hall

/-- None is listed for the running context, so what the listed stacks hold is held by others. -/
theorem ne_running_of_mem {stack : List Frame} {x : Holding}
    (hlisted : s.parked? s.running = some []) (hstack : s.parked? c = some stack)
    (hmem : x ∈ stackHoldings stack) : c ≠ s.running := by
  intro heq
  subst heq
  rw [hlisted, Option.some.injEq] at hstack
  subst hstack
  cases hmem

/-- What was reached is still, through the stack that was left behind or that which took over. -/
theorem reached_hop (own : Need) (w : World) (stack : List Frame) (signal : Signal)
    {there there' : List Frame} {target : ContextId} (hlisted : s.parked? s.running = some [])
    (hthere : s.parked? target = some there) (hne : target ≠ s.running)
    (hsame : stackHoldings there' = stackHoldings there)
    (hpool : forall need c, .token need c ∈ s.pool -> .token need c ∈ w.holdings ∨
      .token need c ∈ stackHoldings stack ∨
        c = target ∨ .token need c ∈ signal.holdings s.running)
    (hown : .token own s.running ∈ signal.holdings s.running) (h : s.Reached c) :
    c = target ∨ (s.hop w stack target there' signal).Reached c := by
  have hparked := parked?_hop w stack there' signal hlisted hthere hne
  have hleft : (s.hop w stack target there' signal).Reached s.running := by
    apply Reached.pool own
    simp only [State.pool, hop, Control.holdings, List.mem_append]
    exact Or.inr hown
  apply h.transfer
  · intro need c hmem
    rcases hpool need c hmem with hw | hstack | htarget | hsignal
    · right
      apply Reached.pool need
      simp only [State.pool, hop, List.mem_append]
      exact Or.inl (Or.inl hw)
    · right
      apply Reached.held need hleft _ hstack
      rw [hparked, if_neg hne.symm, if_pos rfl]
    · exact Or.inl htarget
    · right
      apply Reached.pool need
      simp only [State.pool, hop, Control.holdings, List.mem_append]
      exact Or.inr hsignal
  · intro c d old need hold hmem hc
    right
    by_cases htarget : c = target
    · rw [htarget, hthere, Option.some.injEq] at hold
      rw [<- hold, <- hsame] at hmem
      apply Reached.pool need
      simp only [State.pool, hop, List.mem_append]
      exact Or.inl (Or.inr hmem)
    · have hrunning := ne_running_of_mem hlisted hold hmem
      rcases hc with heq | hreached
      · exact absurd heq htarget
      · apply Reached.held need hreached _ hmem
        rw [hparked, if_neg htarget, if_neg hrunning]
        exact hold

theorem AllReached.hop (own : Need) {w : World} {stack there there' : List Frame}
    {target : ContextId} {signal : Signal} (h : s.AllReached) (hlisted : s.parked? s.running = some [])
    (hthere : s.parked? target = some there) (hne : target ≠ s.running)
    (hsame : stackHoldings there' = stackHoldings there)
    (hpool : forall need c, .token need c ∈ s.pool -> .token need c ∈ w.holdings ∨
      .token need c ∈ stackHoldings stack ∨
        c = target ∨ .token need c ∈ signal.holdings s.running)
    (hown : .token own s.running ∈ signal.holdings s.running) :
    (s.hop w stack target there' signal).AllReached := by
  intro c hc hct
  simp only [State.hop, contextKeys_replaceStack] at hc
  by_cases hrunning : c = s.running
  · apply Reached.pool own
    simp only [State.pool, State.hop, Control.holdings, List.mem_append]
    exact Or.inr (by rwa [hrunning])
  · rcases reached_hop own w stack signal hlisted hthere hne hsame hpool hown
      (h c hc hrunning) with heq | hreached
    · exact absurd heq hct
    · exact hreached

theorem Steady.allReached (hsound : s.Sound lost) (ht : s.Steady s') (hswallows : s.swallows = [])
    (h : s.AllReached) : s'.AllReached := by
  intro c hc hne
  rw [ht.contexts] at hc
  rw [ht.running] at hne
  have hreached : c = s.running ∨ s'.Reached c := by
    apply (h c hc hne).transfer
    · intro need c hmem
      have hpos := List.count_pos_iff.mpr hmem
      have hbalance := ht.balance (.token need c)
      rw [count_made, count_gone, hswallows, List.map_nil, List.count_nil] at hbalance
      exact Or.inr (.pool need (List.count_pos_iff.mp (by omega)))
    · intro c d stack need hstack hmem hc
      right
      apply Reached.held need (hc.resolve_left (ne_running_of_mem hsound.listed hstack hmem)) _ hmem
      rw [parked?, ht.contexts]
      exact hstack
  exact hreached.resolve_left hne

theorem Departs.allReached {w : World} {stack there : List Frame} {target : ContextId}
    {signal : Signal} (hsound : s.Sound lost) (hd : s.Departs w stack need target signal)
    (hthere : s.parked? target = some there) (hneed : needOf there = some need)
    (h : s.AllReached) : (s.hop w stack target there signal).AllReached := by
  rcases hd.returns with ⟨own, -, hsignal⟩
  refine h.hop own hsound.listed hthere (hsound.ne_running hthere hneed) rfl ?_ ?_
  · intro need' c hmem
    rcases hd.mem hmem with hw | hstack | hreleased
    · exact Or.inl hw
    · exact Or.inr (Or.inl hstack)
    · simp only [List.mem_singleton, Holding.token.injEq] at hreleased
      exact Or.inr (Or.inr (Or.inl hreleased.2))
  · rw [hsignal]
    exact List.mem_singleton.mpr rfl

theorem AllReached.answer {prober : ContextId} {query : Query} {purpose : ProbePurpose}
    {a : Activation} {below : List Frame} (reply : Reply) (hsound : s.Sound lost)
    (hcontrol : s.control = .landed prober (.message .query))
    (hprober : s.parked? prober = some (.calling (.probe query none purpose) a :: below))
    (h : s.AllReached) :
    (s.hop s.world s.stack prober (.calling (.probe query (some reply) purpose) a :: below)
      (.message .handover)).AllReached := by
  have hne := hsound.ne_running hprober (show needOf _ = some .reply from rfl)
  refine h.hop .handle hsound.listed hprober hne rfl ?_ ?_
  · intro need' c hmem
    simp only [pool, hcontrol, Control.holdings, Signal.holdings, List.mem_append,
      List.mem_singleton, Holding.token.injEq] at hmem
    rcases hmem with (hw | hstack) | ⟨-, hc⟩
    · exact Or.inl hw
    · exact Or.inr (Or.inl hstack)
    · exact Or.inr (Or.inr (Or.inl hc))
  · exact List.mem_singleton.mpr rfl

/-- A new fiber holds nothing yet, so all that was reached is with it in the list as well. -/
theorem Reached.grown {fiber : ContextId} (hnew : fiber ∉ contextKeys s.contexts)
    (hcf : c ≠ fiber) (h : s.Reached c) : (s.grown fiber).Reached c := by
  have hreached : c = fiber ∨ (s.grown fiber).Reached c := by
    apply h.transfer
    · exact fun need c hmem => Or.inr (.pool need hmem)
    · intro c d stack need hstack hmem hc
      have hcf : c ≠ fiber := by
        intro heq
        subst heq
        exact hnew (mem_contextKeys.mpr ⟨stack, hstack⟩)
      right
      apply Reached.held need (hc.resolve_left hcf) _ hmem
      rw [parked?_grown hcf]
      exact hstack
  exact hreached.resolve_left hcf

theorem Launches.allReached {w : World} {stack : List Frame} {fiber : ContextId} {record : Record}
    (hsound : s.Sound lost) (hl : s.Launches w stack fiber record)
    (hnew : fiber ∉ contextKeys s.contexts) (h : s.AllReached) :
    (s.launched w stack fiber record).AllReached := by
  intro c hc hct
  simp only [launched, State.hop, State.grown, contextKeys_replaceStack] at hc
  have hcf : c ≠ fiber := hct
  have hold : c ∈ contextKeys s.contexts := (List.mem_cons.mp hc).resolve_left hcf
  by_cases hrunning : c = s.running
  · apply Reached.pool .birth
    simp only [State.pool, launched, State.hop, Control.holdings, Signal.holdings,
      List.mem_append, List.mem_cons, hrunning]
    exact Or.inr (Or.inl rfl)
  · have hpool : forall need c, .token need c ∈ s.pool -> .token need c ∈ w.holdings ∨
        .token need c ∈ stackHoldings stack ∨
          c = fiber ∨ .token need c ∈ (Signal.start (some record)).holdings s.running := by
      intro need c hmem
      rcases hl.mem hmem with hw | hstack | hreleased
      · exact Or.inl hw
      · exact Or.inr (Or.inl hstack)
      · exact Or.inr (Or.inr (Or.inr (by simp [Signal.holdings, hreleased])))
    have hgrown := (h c hold hrunning).grown hnew hcf
    have hne := ne_running_of_new hsound.listed hnew
    have hhop := reached_hop .birth w stack (.start (some record)) (listed_grown hsound.listed hnew)
      List.lookup_cons_self hne rfl hpool (by simp [Signal.holdings, State.grown]) hgrown
    exact hhop.resolve_left hcf

/-- What a function on top has captured goes with it, the rest stays with the sender. -/
theorem AllReached.topped {source : ContextId} {host : Host} {f : Closure} {target : SlotName}
    {a : Activation} {below : List Frame} (hsound : s.Sound lost)
    (hcontrol : s.control = .landed source .onTop)
    (hsource : s.parked? source = some (.calling (.resume host (some f) target) a :: below))
    (h : s.AllReached) :
    (s.topped source f (.calling (.resume host none target) a :: below)).AllReached := by
  have hparked := parked?_topped hsource
  have hleft : (s.topped source f (.calling (.resume host none target) a :: below)).Reached
      source := by
    apply Reached.pool .handle
    simp [State.pool, State.topped, Frame.holdings, holdings_activation, Handle.holdings]
  intro c hc hct
  simp only [State.topped, contextKeys_replaceStack] at hc
  have hrunning : c ≠ s.running := hct
  have hreached : c = s.running ∨
      (s.topped source f (.calling (.resume host none target) a :: below)).Reached c := by
    apply (h c hc hrunning).transfer
    · intro need c hmem
      right
      simp only [State.pool, hcontrol, Control.holdings, Signal.holdings, List.mem_append,
        List.mem_singleton, Holding.token.injEq] at hmem
      rcases hmem with (hw | hstack) | ⟨-, rfl⟩
      · apply Reached.pool need
        simp [State.pool, State.topped, hw]
      · apply Reached.pool need
        simp [State.pool, State.topped, hstack]
      · exact hleft
    · intro c d stack need hstack hmem hc
      right
      have hcr := ne_running_of_mem hsound.listed hstack hmem
      by_cases hcs : c = source
      · rw [hcs, hsource, Option.some.injEq] at hstack
        subst hstack
        simp only [stackHoldings_cons, Frame.holdings, Call.holdings, Closure.leftover,
          List.mem_append] at hmem
        rcases hmem with (hcaptured | ha) | hbelow
        · apply Reached.pool need
          simp [State.pool, State.topped, Frame.holdings, holdings_activation, hcaptured]
        · apply Reached.held need hleft
          · rw [hparked, if_pos rfl]
          · simp [Frame.holdings, ha]
        · apply Reached.held need hleft
          · rw [hparked, if_pos rfl]
          · simp [hbelow]
      · apply Reached.held need (hc.resolve_left hcr) _ hmem
        rw [hparked, if_neg hcs]
        exact hstack
  exact hreached.resolve_left hrunning

theorem Releases.allReached {source : ContextId} {lease : Lease} (hr : s.Releases source lease s')
    (hcontrol : s.control = .landed source .exit)
    (hsource : s.parked? source = some [.base (.exited lease)]) (h : s.AllReached) :
    s'.AllReached := by
  intro c hc hct
  rw [hr.contexts, contextKeys_filter, List.mem_filter] at hc
  have hcs : c ≠ source := of_decide_eq_true hc.2
  rw [hr.running] at hct
  have hreached : c = source ∨ s'.Reached c := by
    apply (h c hc.1 hct).transfer
    · intro need c hmem
      simp only [State.pool, hcontrol, Control.holdings, Signal.holdings, List.mem_append,
        List.mem_singleton, Holding.token.injEq] at hmem
      rcases hmem with (hw | hstack) | ⟨-, rfl⟩
      · right
        apply Reached.pool need
        simp only [World.holdings] at hw
        simp [State.pool, World.holdings, hr.globals, hw]
      · right
        apply Reached.pool need
        simp [State.pool, hr.stack, hstack]
      · exact Or.inl rfl
    · intro c d stack need hstack hmem hc
      right
      have hcs : c ≠ source := by
        intro heq
        subst heq
        rw [hsource, Option.some.injEq] at hstack
        subst hstack
        cases hmem
      apply Reached.held need (hc.resolve_left hcs) _ hmem
      rw [hr.parked?, if_neg hcs]
      exact hstack
  exact hreached.resolve_left hcs

theorem Move.allReached (hsound : s.Sound lost) (hm : s.Move s') (hswallows : s.swallows = [])
    (h : s.AllReached) : s'.AllReached := by
  cases hm with
  | stay ht => exact ht.allReached hsound hswallows h
  | switch need hd hthere hneed => exact hd.allReached hsound hthere hneed h
  | answer reply hcontrol hprober => exact h.answer reply hsound hcontrol hprober
  | launch hl hnew => exact hl.allReached hsound hnew h
  | call hcontrol hsource => exact h.topped hsound hcontrol hsource
  | release hcontrol hsource hr => exact hr.allReached hcontrol hsource h

/-! ## The forest -/

/--
Ownership in a state: everything is owned in the end by a root, nothing has two owners, and nothing
owns itself.
-/
structure Forest (s : State) : Prop where
  rooted : forall c, c ∈ contextKeys s.contexts ->
    exists root, s.IsRoot root ∧ ReflTransGen s.Owns root c
  /-- Between two operations, contexts are owned by their handles and by pending unwinds. -/
  kinds : forall c d, s.control = .run -> s.Owns c d ->
    .token .handle d ∈ s.heldBy c ∨ .token .request d ∈ s.heldBy c
  listed : forall c d, s.Owns c d -> d ∈ contextKeys s.contexts
  unowned : forall c root, s.IsRoot root -> ¬ s.Owns c root
  single : forall c c' d, s.Owns c d -> s.Owns c' d -> c = c'
  acyclic : forall c, ¬ TransGen s.Owns c c

theorem Sound.owns_of_held {stack : List Frame} (h : s.Sound lost)
    (hstack : s.parked? c = some stack) (hmem : .token need d ∈ stackHoldings stack) :
    s.Owns c d := by
  have hne := ne_running_of_mem h.listed hstack hmem
  exact ⟨need, by rwa [heldBy_parked hne hstack]⟩

theorem Reached.rooted (hsound : s.Sound lost) (h : s.Reached c) :
    exists root, s.IsRoot root ∧ ReflTransGen s.Owns root c := by
  induction h with
  | pool need hmem =>
      simp only [State.pool, List.append_assoc, List.mem_append (s := s.world.holdings)] at hmem
      rcases hmem with hshared | hheld
      · exact ⟨_, Or.inr ⟨need, hshared⟩, .refl⟩
      · refine ⟨s.running, Or.inl rfl, .single ⟨need, ?_⟩⟩
        rwa [heldBy_running]
  | held need _ hstack hmem ih =>
      rcases ih with ⟨root, hroot, hpath⟩
      exact ⟨root, hroot, hpath.tail (hsound.owns_of_held hstack hmem)⟩

/-- Going back from a context in reach comes to a root, and not to the context again. -/
theorem Reached.acyclic (hsound : s.Sound lost) (h : s.Reached c) : ¬ TransGen s.Owns c c := by
  induction h with
  | pool need hmem =>
      rename_i c
      intro hcycle
      simp only [State.pool, List.append_assoc, List.mem_append (s := s.world.holdings)] at hmem
      rcases hmem with hshared | hheld
      · rcases TransGen.tail'_iff.mp hcycle with ⟨owner, -, howns⟩
        exact hsound.not_owns_root (Or.inr ⟨need, hshared⟩) howns
      · rcases TransGen.tail'_iff.mp hcycle with ⟨owner, hpath, howns⟩
        have hrunning : s.Owns s.running c := ⟨need, by rwa [heldBy_running]⟩
        rw [hsound.owner_unique howns hrunning] at hpath
        rcases ReflTransGen.cases_tail hpath with heq | ⟨other, -, hother⟩
        · rw [heq] at hrunning
          exact hsound.not_owns_root (Or.inl rfl) (heq ▸ hrunning)
        · exact hsound.not_owns_root (Or.inl rfl) hother
  | held need _ hstack hmem ih =>
      intro hcycle
      rcases TransGen.tail'_iff.mp hcycle with ⟨owner, hpath, howns⟩
      have hheld := hsound.owns_of_held hstack hmem
      rw [hsound.owner_unique howns hheld] at hpath
      exact ih (TransGen.head'_iff.mpr ⟨_, hheld, hpath⟩)

theorem AllReached.forest (hsound : s.Sound lost) (h : s.AllReached) : s.Forest where
  rooted := by
    intro c hc
    by_cases hrunning : c = s.running
    · exact ⟨c, Or.inl hrunning, .refl⟩
    · exact (h c hc hrunning).rooted hsound
  kinds := by
    intro c d hrun howns
    rcases howns with ⟨need, hmem⟩
    have hkept : KeptOnly (s.heldBy c) := by
      rw [heldBy, hrun]
      split
      · exact .append (.stack _) .nil
      · exact .stack _
    rcases hkept need d hmem with rfl | rfl
    · exact Or.inl hmem
    · exact Or.inr hmem
  listed := by
    intro c d howns
    rcases howns with ⟨need, hmem⟩
    have hheld := Sound.mem_holdings_of_heldBy hmem
    rcases hsound.parked_of_token (List.count_pos_iff.mpr hheld) with ⟨stack, hstack, -⟩
    exact mem_contextKeys.mpr ⟨stack, hstack⟩
  unowned := fun c root hroot => hsound.not_owns_root hroot
  single := fun c c' d => hsound.owner_unique
  acyclic := by
    intro c hcycle
    rcases TransGen.tail'_iff.mp hcycle with ⟨owner, -, need, hmem⟩
    have hheld := Sound.mem_holdings_of_heldBy hmem
    rcases hsound.parked_of_token (List.count_pos_iff.mpr hheld) with ⟨stack, hstack, -⟩
    have hne := hsound.ne_running_of_token hheld
    exact (h c (mem_contextKeys.mpr ⟨stack, hstack⟩) hne).acyclic hsound hcycle

/-! ## The end of a run -/

/-- The last round of draining is over, and has found nothing. -/
def DrainedDry (s : State) : Prop :=
  s.control = .run ∧ exists rounds panic below,
    s.stack = .root (.draining rounds [] false panic) :: below

/-- With nothing left in the shared slots, nobody but the main program is left. -/
theorem Sound.holdings_of_drainedDry (h : s.Sound lost) (hall : s.AllReached)
    (htidy : Tidy s.world s.stack) (hdry : s.DrainedDry) :
    s.holdings = [] ∧ s.stacksInUse = 0 := by
  rcases hdry with ⟨hrun, rounds, panic, below, hstack⟩
  have hstands := h.stands
  simp only [Stands, hrun, hstack] at hstands
  rcases hstands with ⟨⟨hnative, rfl⟩, -⟩
  have hshared : s.world.holdings = [] := by
    rw [World.holdings, List.flatMap_eq_nil_iff]
    intro entry hmem
    rcases entry with ⟨name, k⟩
    rw [hstack] at htidy
    cases k with
    | empty => rfl
    | live fiber => exact absurd (htidy.2 name _ hmem (by simp)) (by simp)
  have hpool : s.pool = [] := by
    rw [State.pool, hshared, hrun, hstack]
    rfl
  have hnone : forall c, ¬ s.Reached c := by
    intro c hc
    induction hc with
    | pool need hmem =>
        rw [hpool] at hmem
        cases hmem
    | held need _ _ _ ih => exact ih
  have honly : forall c, c ∈ contextKeys s.contexts -> c = s.running := by
    intro c hc
    apply Decidable.byContradiction
    exact fun hne => hnone c (hall c hc hne)
  have hmain : s.running = mainContext := by
    rw [homeOf] at hnative
    split at hnative
    · assumption
    · cases hnative
  constructor
  · rw [holdings, hpool, List.nil_append, parkedHoldings, List.flatMap_eq_nil_iff]
    intro entry hmem
    rcases entry with ⟨c, stack⟩
    have hc : c = s.running := honly c (List.mem_map.mpr ⟨_, hmem, rfl⟩)
    have hlookup := lookup_of_mem h.keys hmem
    rw [hc] at hlookup
    rw [Option.some.inj (hlookup.symm.trans h.listed)]
    rfl
  · rw [stacksInUse, List.countP_eq_zero]
    intro c hc
    rw [honly c hc, borrows, leaseAt_self]
    simp [lease?, hrun, hstack, leaseOf]

end State

theorem Program.Reaches.allReached_of_lostIn {p : Program} {past : List State} {s : State}
    (h : p.Reaches past s) (hlost : lostIn past = []) : s.AllReached := by
  induction h with
  | start =>
      intro c hc hne
      exact absurd (List.mem_singleton.mp hc) hne
  | step hbefore hstep ih =>
      rcases List.append_eq_nil_iff.mp hlost with ⟨hswallows, hearlier⟩
      have hsound := hbefore.sound
      exact (hsound.move hstep).1.allReached hsound hswallows (ih hearlier)

theorem Program.Reaches.allReached {p : Program} {past : List State} {s : State}
    (h : p.Reaches past s) (hmain : Discipline.lossless.allowsAll p.main = true) :
    s.AllReached :=
  h.allReached_of_lostIn (h.lostIn_eq_nil hmain)

/--
A program that discards no forced unwind leaks nothing: in all its states ownership is a forest, and
if it ends with empty shared slots, all its guards have been dropped and all its stacks are back.
-/
theorem no_leak {p : Program} {past : List State} {s : State}
    (hmain : Discipline.lossless.allowsAll p.main = true) (h : p.Reaches past s) :
    s.Forest ∧
      forall outcome w, s.step = .halted outcome w -> s.DrainedDry ->
        (outcome = .finished ∨ exists payload, outcome = .panicked payload) ∧
          (Answer.ofWorld outcome w).liveGuards = 0 ∧ (Answer.ofWorld outcome w).liveStacks = 0 ∧
            ((Answer.ofWorld outcome w).log.filterMap LogEntry.guard?).Perm (madeIn past) := by
  have hsound := h.sound
  have hall := h.allReached hmain
  refine ⟨hall.forest hsound, ?_⟩
  intro outcome w hstep hdry
  rcases hsound.halts hstep with ⟨hends, rfl⟩
  rcases hsound.holdings_of_drainedDry hall h.tidy hdry with ⟨hnothing, hstacks⟩
  rcases hdry with ⟨hrun, rounds, panic, below, hstack⟩
  have haudit := h.audited
  have hperm : (droppedIn past).Perm (madeIn past) := by
    rw [List.perm_iff_count]
    intro label
    rw [haudit.held, hnothing]
    rfl
  refine ⟨?_, ?_, ?_, ?_⟩
  · have houtcome : outcome = panic.elim .finished .panicked := by
      simp only [State.step, hrun, State.run, hstack, State.runRoot] at hstep
      cases rounds <;> exact (Config.halted.inj hstep).1.symm
    cases panic with
    | none => exact Or.inl houtcome
    | some payload => exact Or.inr ⟨payload, houtcome⟩
  · have hlength := hperm.length_eq
    simp only [Answer.ofWorld, haudit.guards]
    omega
  · simp only [Answer.ofWorld, haudit.lent, hstacks]
    rfl
  · simp only [Answer.ofWorld, List.filterMap_reverse]
    rw [haudit.logged]
    exact (List.reverse_perm _).trans hperm

/-- The guard that the fiber of a small program has captured is dropped, and its stack is back. -/
theorem no_leak_of_oneFiber :
    exists past s w, Program.oneFiber.Reaches past s ∧ s.Forest ∧
      s.step = .halted .finished w ∧ w.liveGuards = 0 ∧ w.liveStacks = 0 ∧
        ((Answer.ofWorld .finished w).log.filterMap LogEntry.guard?).Perm (madeIn past) := by
  have hafter : exists s, Config.after 18 (.active Program.oneFiber.start) = .active s ∧
      s.control = .run ∧ s.world.globals = [] ∧ s.stack = [.root (.draining 100 [] true none)] :=
    ⟨_, rfl, rfl, rfl, rfl⟩
  rcases hafter with ⟨s, hs, hrun, hglobals, hstack⟩
  rcases Program.after_eq_active.mp hs with ⟨past, -, hreach⟩
  have hround : s.step = .active { s with stack := [.root (.draining 99 [] false none)] } := by
    simp [State.step, hrun, State.run, hstack, State.runRoot, State.go, World.globalNames, hglobals]
  rcases no_leak rfl (hreach.step hround) with ⟨hforest, hend⟩
  have hstep : { s with stack := [.root (.draining 99 [] false none)] }.step =
      .halted .finished s.world := by
    simp [State.step, hrun, State.run, State.runRoot]
  rcases hend _ _ hstep ⟨hrun, 99, none, [], rfl⟩ with ⟨-, hguards, hstacks, hdropped⟩
  exact ⟨_, _, s.world, hreach.step hround, hforest, hstep, hguards, hstacks, hdropped⟩

end Fibers
