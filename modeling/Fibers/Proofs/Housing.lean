import Fibers.Proofs.Layout
import Fibers.Proofs.Registry

/-!
# Where contexts live

A fiber is named by the number of its stack, and known to the registry by an address on it.  Its stack
is registered for as long as it has a lease, and the stacks of two fibers are apart: whether a stack
is in memory that was never used or in memory that was given back, the kind of a running context's
stack is that of the stack it was given.
-/

namespace Fibers

/--
The contexts with a lease have numbers that have been given out and addresses on their stacks, and
these stacks are what is registered.  The main program's address is on none of them.
-/
structure Housed (lease : ContextId -> Option Lease) (g : Registry) (address : ContextId -> Nat)
    (next : Nat) : Prop where
  placed : forall c l, lease c = some l -> l.stack.contains (address c)
  numbered : forall c l, lease c = some l -> mainContext < c ∧ c < next
  unique : forall c d l k, lease c = some l -> lease d = some k -> l.stack = k.stack -> c = d
  registered : forall r, r ∈ g.ranges ↔ exists c l, lease c = some l ∧ l.stack = r
  ordered : OrderedRanges g.ranges
  page : forall r, r ∈ g.ranges -> pageSize ≤ r.bottom
  native : address mainContext < pageSize

namespace Housed

variable {lease lease' : ContextId -> Option Lease} {g : Registry} {address : ContextId -> Nat}
  {next next' c : Nat} {l : Lease}

theorem none : Housed (fun _ => .none) {} (fun _ => 0) next where
  placed := by simp
  numbered := by simp
  unique := by simp
  registered := by simp
  ordered := ⟨List.Pairwise.nil, by simp⟩
  page := by simp
  native := by decide

theorem mem_ranges (h : Housed lease g address next) (hc : lease c = some l) :
    l.stack ∈ g.ranges :=
  (h.registered l.stack).mpr ⟨c, l, hc, rfl⟩

/-- The registry tells of an address that it is a fiber's if it lies on the stack of one. -/
theorem kindAt_eq_fiber {a : Nat} (h : Housed lease g address next) :
    g.kindAt a = .fiber ↔ exists c l, lease c = some l ∧ l.stack.contains a := by
  rw [Registry.kindAt_eq_fiber h.ordered]
  constructor
  · rintro ⟨r, hr, hcontains⟩
    rcases (h.registered r).mp hr with ⟨c, l, hc, rfl⟩
    exact ⟨c, l, hc, hcontains⟩
  · rintro ⟨c, l, hc, hcontains⟩
    exact ⟨l.stack, h.mem_ranges hc, hcontains⟩

/-- The registry tells what kind of stack a context was given. -/
theorem kindAt (h : Housed lease g address next)
    (hfiber : c ≠ mainContext -> exists l, lease c = some l) :
    g.kindAt (address c) = homeOf c := by
  by_cases hc : c = mainContext
  · have hnot : ¬ g.kindAt (address c) = .fiber := by
      rw [h.kindAt_eq_fiber, hc]
      rintro ⟨d, l, hd, hcontains⟩
      have hpage := h.page l.stack (h.mem_ranges hd)
      exact Nat.not_lt.mpr (Nat.le_trans hpage hcontains.1) h.native
    rw [homeOf, if_pos hc]
    cases hkind : g.kindAt (address c) with
    | native => rfl
    | fiber => exact absurd hkind hnot
  · rcases hfiber hc with ⟨l, hl⟩
    rw [homeOf, if_neg hc, h.kindAt_eq_fiber]
    exact ⟨c, l, hl, h.placed c l hl⟩

/-! ## Leases that come and go -/

theorem mono (h : Housed lease g address next) (hnext : next ≤ next')
    (hlease : forall c, lease' c = lease c) : Housed lease' g address next' where
  placed := by simpa only [hlease] using h.placed
  numbered := by
    simp only [hlease]
    exact fun c l hl => ⟨(h.numbered c l hl).1, Nat.lt_of_lt_of_le (h.numbered c l hl).2 hnext⟩
  unique := by simpa only [hlease] using h.unique
  registered := by simpa only [hlease] using h.registered
  ordered := h.ordered
  page := h.page
  native := h.native

/-- A lease is the new one, or it was there before. -/
theorem lease_cases {d : Nat} {k : Lease} (hlease : lease' c = some l)
    (hothers : forall d, d ≠ c -> lease' d = lease d) (hd : lease' d = some k) :
    d = c ∧ k = l ∨ d ≠ c ∧ lease d = some k := by
  by_cases hdc : d = c
  · subst hdc
    exact Or.inl ⟨rfl, Option.some.inj (hd.symm.trans hlease)⟩
  · exact Or.inr ⟨hdc, (hothers d hdc).symm.trans hd⟩

/-- A stack that is apart from all that are registered lies below or above each of them. -/
theorem beside {stack r : Region} (h : Housed lease g address next)
    (hfilled : stack.bottom < stack.top) (hapart : forall r, r ∈ g.ranges -> r.Apart stack)
    (hr : r ∈ g.ranges) : r.top ≤ stack.bottom ∨ stack.top ≤ r.bottom :=
  ((hapart r hr).beside (h.ordered.filled r hr) hfilled).symm

theorem bottom_ne {stack r : Region} (h : Housed lease g address next)
    (hfilled : stack.bottom < stack.top) (hapart : forall r, r ∈ g.ranges -> r.Apart stack)
    (hr : r ∈ g.ranges) : r.bottom ≠ stack.bottom := by
  have hrfilled := h.ordered.filled r hr
  rcases h.beside hfilled hapart hr with hbelow | habove
  · exact Nat.ne_of_lt (Nat.lt_of_lt_of_le hrfilled hbelow)
  · exact (Nat.ne_of_lt (Nat.lt_of_lt_of_le hfilled habove)).symm

theorem launch {address' : ContextId -> Nat} (h : Housed lease g address next) (hfirst : 0 < next)
    (hnumber : next ≤ c ∧ c < next') (hpage : pageSize ≤ l.stack.bottom)
    (hapart : forall r, r ∈ g.ranges -> r.Apart l.stack) (hplaced : l.stack.contains (address' c))
    (haddress : forall d, d ≠ c -> address' d = address d) (hlease : lease' c = some l)
    (hothers : forall d, d ≠ c -> lease' d = lease d) :
    Housed lease' (g.insert l.stack) address' next' := by
  have hfilled : l.stack.bottom < l.stack.top := Nat.lt_of_le_of_lt hplaced.1 hplaced.2
  have hmem : forall r, r ∈ (g.insert l.stack).ranges ↔ r = l.stack ∨ r ∈ g.ranges :=
    fun r => Registry.mem_insertRange fun r hr => h.bottom_ne hfilled hapart hr
  have hfresh : forall d k, lease d = some k -> k.stack ≠ l.stack := by
    intro d k hd hstack
    exact h.bottom_ne hfilled hapart (h.mem_ranges hd) (congrArg Region.bottom hstack)
  have hcases : forall d k, lease' d = some k -> d = c ∧ k = l ∨ d ≠ c ∧ lease d = some k :=
    fun d k => lease_cases hlease hothers
  have hold : forall d k, lease d = some k -> lease' d = some k := by
    intro d k hd
    have hdc : d ≠ c := Nat.ne_of_lt (Nat.lt_of_lt_of_le (h.numbered d k hd).2 hnumber.1)
    exact (hothers d hdc).trans hd
  constructor
  · intro d k hd
    rcases hcases d k hd with ⟨rfl, rfl⟩ | ⟨hdc, hd⟩
    · exact hplaced
    · rw [haddress d hdc]
      exact h.placed d k hd
  · intro d k hd
    rcases hcases d k hd with ⟨rfl, rfl⟩ | ⟨-, hd⟩
    · exact ⟨Nat.lt_of_lt_of_le hfirst hnumber.1, hnumber.2⟩
    · have hnumbered := h.numbered d k hd
      exact ⟨hnumbered.1, Nat.lt_trans (Nat.lt_of_lt_of_le hnumbered.2 hnumber.1) hnumber.2⟩
  · intro d e k m hd he hstack
    rcases hcases d k hd with ⟨rfl, rfl⟩ | ⟨-, hd⟩
    · rcases hcases e m he with ⟨rfl, -⟩ | ⟨-, he⟩
      · rfl
      · exact absurd hstack.symm (hfresh e m he)
    · rcases hcases e m he with ⟨rfl, rfl⟩ | ⟨-, he⟩
      · exact absurd hstack (hfresh d k hd)
      · exact h.unique d e k m hd he hstack
  · intro r
    rw [hmem, h.registered]
    constructor
    · rintro (rfl | ⟨d, k, hd, hk⟩)
      · exact ⟨c, l, hlease, rfl⟩
      · exact ⟨d, k, hold d k hd, hk⟩
    · rintro ⟨d, k, hd, hk⟩
      rcases hcases d k hd with ⟨-, rfl⟩ | ⟨-, hd⟩
      · exact Or.inl hk.symm
      · exact Or.inr ⟨d, k, hd, hk⟩
  · exact Registry.OrderedRanges.insertRange h.ordered hfilled fun r hr => h.beside hfilled hapart hr
  · intro r hr
    rcases (hmem r).mp hr with rfl | hr
    · exact hpage
    · exact h.page r hr
  · have hmain : mainContext ≠ c := Nat.ne_of_lt (Nat.lt_of_lt_of_le hfirst hnumber.1)
    rw [haddress mainContext hmain]
    exact h.native

theorem release (h : Housed lease g address next) (hc : lease c = some l)
    (hnone : lease' c = .none) (hothers : forall d, d ≠ c -> lease' d = lease d) :
    Housed lease' (g.erase l.stack) address next := by
  have hmem : forall r, r ∈ (g.erase l.stack).ranges ↔ r ∈ g.ranges ∧ r ≠ l.stack :=
    fun r => Registry.mem_erase h.ordered (h.mem_ranges hc)
  have hkept : forall d k, lease' d = some k -> d ≠ c ∧ lease d = some k := by
    intro d k hd
    have hdc : d ≠ c := by
      intro heq
      subst heq
      rw [hnone] at hd
      cases hd
    exact ⟨hdc, (hothers d hdc).symm.trans hd⟩
  constructor
  · exact fun d k hd => h.placed d k (hkept d k hd).2
  · exact fun d k hd => h.numbered d k (hkept d k hd).2
  · exact fun d e k m hd he => h.unique d e k m (hkept d k hd).2 (hkept e m he).2
  · intro r
    rw [hmem, h.registered]
    constructor
    · intro hkept
      rcases hkept with ⟨⟨d, k, hd, rfl⟩, hne⟩
      have hdc : d ≠ c := by
        intro heq
        subst heq
        rw [hc, Option.some.injEq] at hd
        exact hne (congrArg Lease.stack hd.symm)
      exact ⟨d, k, (hothers d hdc).trans hd, rfl⟩
    · intro hleased
      rcases hleased with ⟨d, k, hd, rfl⟩
      rcases hkept d k hd with ⟨hdc, hd⟩
      exact ⟨⟨d, k, hd, rfl⟩, fun hstack => hdc (h.unique d c k l hd hc hstack)⟩
  · exact Registry.OrderedRanges.erase h.ordered
  · exact fun r hr => h.page r ((hmem r).mp hr).1
  · exact h.native

end Housed

end Fibers
