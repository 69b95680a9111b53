/-!
# Regions of memory

Addresses are natural numbers.  A stack is a region: the addresses from its bottom up to, and
without, its top.
-/

namespace Fibers

/-- The addresses `a` with `bottom ≤ a < top`. -/
structure Region where
  bottom : Nat
  top : Nat
deriving DecidableEq, Inhabited

namespace Region

def size (r : Region) : Nat := r.top - r.bottom

def contains (r : Region) (a : Nat) : Prop := r.bottom ≤ a ∧ a < r.top

instance (r : Region) (a : Nat) : Decidable (r.contains a) :=
  inferInstanceAs (Decidable (_ ∧ _))

/-- No address lies in both ranges. -/
def Apart (r s : Region) : Prop := forall a, r.contains a -> ¬ s.contains a

theorem apart_of_le {r s : Region} (h : r.top ≤ s.bottom) : r.Apart s :=
  fun _ hr hs => Nat.not_lt.mpr (Nat.le_trans h hs.1) hr.2

theorem Apart.symm {r s : Region} (h : r.Apart s) : s.Apart r := fun a hs hr => h a hr hs

end Region

/-- The greatest multiple of `unit` that is not above `a`. -/
def alignDown (a unit : Nat) : Nat := a / unit * unit

/-- The least multiple of `unit` that is not below `a`. -/
def alignUp (a unit : Nat) : Nat := (a + unit - 1) / unit * unit

theorem le_alignUp {a unit : Nat} (hunit : 0 < unit) : a ≤ alignUp a unit := by
  have hdiv := Nat.div_add_mod (a + unit - 1) unit
  have hmod := Nat.mod_lt (a + unit - 1) hunit
  rw [Nat.mul_comm] at hdiv
  unfold alignUp
  omega

end Fibers
