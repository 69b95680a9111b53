import Fibers.Stack.Errors
import Fibers.Stack.Region

/-!
# Where a fiber's record goes

A fiber keeps its record at the top of its own stack: aligned down to a multiple of 256, with 64
free bytes below it, and under these the part of the stack that the fiber runs on.  A stack is
refused if it could not hold all this and 1024 bytes to run on, whatever its alignment costs.
-/

namespace Fibers

namespace Placement

/-- Records start at multiples of this. -/
def recordAlignment : Nat := 256

/-- The bytes left free between a record and the part of the stack below it. -/
def recordGap : Nat := 64

/-- The least room that a fiber is given to run in. -/
def minimumRoom : Nat := 1024

/-- The bytes that a stack must have to hold a record of the given size. -/
def required (recordSize : Nat) : Nat := recordSize + recordAlignment + recordGap + minimumRoom

end Placement

/-- A record's address on a stack, and the region below it that the fiber runs on. -/
structure Placement where
  record : Nat
  usable : Region
deriving DecidableEq

/-- Places a record of the given size on a stack, or tells that the stack is too small. -/
def Placement.onStack (stack : Region) (recordSize : Nat) : Except BuildError Placement :=
  if stack.size < Placement.required recordSize then
    .error (.stackTooSmall stack.size (Placement.required recordSize))
  else
    let record := alignDown (stack.top - recordSize) Placement.recordAlignment
    .ok ⟨record, ⟨stack.bottom, record - Placement.recordGap⟩⟩

namespace Placement

variable {stack : Region} {recordSize : Nat}

theorem onStack_of_small (h : stack.size < required recordSize) :
    onStack stack recordSize = .error (.stackTooSmall stack.size (required recordSize)) :=
  if_pos h

/-- The only reason for refusing a stack is that it has too few bytes. -/
theorem onStack_eq_error {cause : BuildError} :
    onStack stack recordSize = .error cause ↔ stack.size < required recordSize ∧
      cause = .stackTooSmall stack.size (required recordSize) := by
  constructor
  · intro h
    by_cases hsmall : stack.size < required recordSize
    · rw [onStack_of_small hsmall] at h
      exact ⟨hsmall, (Except.error.inj h).symm⟩
    · rw [onStack, if_neg hsmall] at h
      cases h
  · intro h
    rcases h with ⟨hsmall, rfl⟩
    exact onStack_of_small hsmall

/-- What a fiber runs on is a part of its stack, and not empty. -/
theorem contains_onStack {p : Placement} (h : onStack stack recordSize = .ok p) :
    stack.contains (p.usable.top - 1) := by
  unfold onStack at h
  split at h
  · cases h
  · rename_i hsize
    have hdiv := Nat.div_add_mod (stack.top - recordSize) recordAlignment
    have hmod := Nat.mod_lt (stack.top - recordSize) (show 0 < recordAlignment by decide)
    rw [Nat.mul_comm] at hdiv
    have h := Except.ok.inj h
    subst h
    simp only [required, Region.size, Region.contains, alignDown, recordAlignment, recordGap,
      minimumRoom] at hsize hdiv hmod ⊢
    omega

end Placement

end Fibers
