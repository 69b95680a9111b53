import Fibers.Generator
import Fibers.Proofs.Dialogue
import Mathlib.Data.Nat.Fib.Basic

/-!
# What the rounds of a generator write

A round of the generator hands over the first of two neighbouring Fibonacci numbers and moves on to
the next pair, all in words of 64 bits.  Here the rounds are told without the machine, one after
another, and it is seen what they leave in the cells and in the log.
-/

namespace Fibers

/-! ## Cells -/

/-- A cell holds what was last put there. -/
theorem World.cell_setCell (w : World) (name other : String) (value : UInt64) :
    (w.setCell name value).cell other = if other = name then value else w.cell other := by
  by_cases hother : other = name
  · simp [cell, setCell, hother]
  · have hskipped : (other == name) = false := by simpa using hother
    rw [if_neg hother, cell, cell, setCell, List.lookup_cons, hskipped, lookup_filter_of_ne hother]

namespace Generator

/-! ## Fibonacci numbers in words -/

/-- A Fibonacci number, modulo the size of a word. -/
def number (i : Nat) : UInt64 := .ofNat (Nat.fib i)

theorem number_add_two (i : Nat) : number (i + 2) = number i + number (i + 1) := by
  rw [number, number, number, Nat.fib_add_two, UInt64.ofNat_add]

/-- The cells of the generator hold two neighbouring numbers. -/
structure HoldsPair (w : World) (i : Nat) : Prop where
  first : w.cell "a" = number i
  second : w.cell "b" = number (i + 1)

/-! ## One round -/

/-- A round, without the switch that ends it. -/
def yieldOps : List Op :=
  [ .setCell output (.cell "a"),
    .setCell "sum" (.cell "a"), .addCell "sum" (.cell "b"),
    .setCell "a" (.cell "b"), .setCell "b" (.cell "sum") ]

section

variable {w : World} {i : Nat}

/-- A round hands over the first number of the pair, and leaves the next pair. -/
theorem HoldsPair.yields (h : HoldsPair w i) (label : String) (kind : StackKind) :
    HoldsPair (Op.writeAll label kind yieldOps w) (i + 1) ∧
      (Op.writeAll label kind yieldOps w).cell output = number i ∧
      (Op.writeAll label kind yieldOps w).log = w.log := by
  have hnext : w.cell "a" + w.cell "b" = number (i + 2) := by
    rw [h.first, h.second, number_add_two]
  have hcells : (Op.writeAll label kind yieldOps w).cell "a" = w.cell "b" ∧
      (Op.writeAll label kind yieldOps w).cell "b" = w.cell "a" + w.cell "b" ∧
        (Op.writeAll label kind yieldOps w).cell "out" = w.cell "a" := by
    simp [yieldOps, output, Op.writeAll, Op.write, World.read, World.cell_setCell]
  exact ⟨⟨hcells.1.trans h.second, hcells.2.1.trans hnext⟩, hcells.2.2.trans h.first, rfl⟩

end

/-! ## All rounds -/

/-- What the fiber does when it is resumed for a round: at first it sets out from the first pair. -/
def opening : Nat -> World -> World
  | 0, w => Op.writeAll "fibonacci" .fiber [.setCell "a" (.number 0), .setCell "b" (.number 1)] w
  | _ + 1, w => w.note "fibonacci" (.resumed (.live mainContext))

/-- The round with the given index, from the switch of the main program to the number told. -/
def tellRound (fiber : ContextId) (i : Nat) (w : World) : World :=
  let w := Op.writeAll "fibonacci" .fiber yieldOps (opening i w)
  let w := w.note "main" (.resumed (.live fiber))
  Op.writeAll "main" .native [.printCell output] w

def tellRounds (fiber : ContextId) : Nat -> World -> World
  | 0, w => w
  | i + 1, w => tellRound fiber i (tellRounds fiber i w)

/-- What a round adds to the log. -/
def roundLog (fiber : ContextId) : Nat -> List LogEntry
  | 0 => [.noted "main" (.resumed (.live fiber)), .noted "main" (.cell output (number 0))]
  | i + 1 =>
      [.noted "fibonacci" (.resumed (.live mainContext)), .noted "main" (.resumed (.live fiber)),
        .noted "main" (.cell output (number (i + 1)))]

section

variable {w : World} {i : Nat}

theorem holdsPair_opening (h : i ≠ 0 -> HoldsPair w i) : HoldsPair (opening i w) i := by
  cases i with
  | zero =>
      have hcells : (opening 0 w).cell "a" = UInt64.ofInt 0 ∧
          (opening 0 w).cell "b" = UInt64.ofInt 1 := by
        simp [opening, Op.writeAll, Op.write, World.read, World.cell_setCell]
      exact ⟨hcells.1, hcells.2⟩
  | succ i => exact ⟨(h (Nat.succ_ne_zero i)).first, (h (Nat.succ_ne_zero i)).second⟩

/-- A round writes the number of its index, and leaves the next one ready. -/
theorem tellRound_holds (fiber : ContextId) (h : i ≠ 0 -> HoldsPair w i) :
    HoldsPair (tellRound fiber i w) (i + 1) ∧
      (tellRound fiber i w).log = (roundLog fiber i).reverse ++ w.log := by
  rcases (holdsPair_opening h).yields "fibonacci" .fiber with ⟨hpair, hout, hlog⟩
  refine ⟨⟨hpair.first, hpair.second⟩, ?_⟩
  let yielded := Op.writeAll "fibonacci" .fiber yieldOps (opening i w)
  have hnoted : (tellRound fiber i w).log =
      .noted "main" (.cell output (yielded.cell output)) ::
        .noted "main" (.resumed (.live fiber)) :: yielded.log := rfl
  rw [hnoted, hout, hlog]
  cases i <;> rfl

/-- The rounds tell the numbers one after another. -/
theorem tellRounds_holds (fiber : ContextId) (n : Nat) (w : World) :
    (n ≠ 0 -> HoldsPair (tellRounds fiber n w) n) ∧
      (tellRounds fiber n w).log = ((List.range n).flatMap (roundLog fiber)).reverse ++ w.log := by
  induction n with
  | zero => exact ⟨fun hzero => absurd rfl hzero, rfl⟩
  | succ n ih =>
      rcases tellRound_holds fiber ih.1 with ⟨hpair, hlog⟩
      refine ⟨fun _ => hpair, ?_⟩
      rw [tellRounds, hlog, ih.2, List.range_succ, List.flatMap_append, List.reverse_append,
        List.flatMap_singleton, List.append_assoc]

theorem written_tellRound (fiber : ContextId) (i : Nat) (w : World) :
    w.Written (tellRound fiber i w) := by
  have hopening : w.Written (opening i w) := by
    cases i with
    | zero => exact Op.written_writeAll _ _ _ w
    | succ i => exact .note w _ _
  have hyields := hopening.trans (Op.written_writeAll "fibonacci" .fiber yieldOps _)
  have hback := hyields.trans (.note _ "main" (.resumed (.live fiber)))
  exact hback.trans (Op.written_writeAll "main" .native [.printCell output] _)

theorem written_tellRounds (fiber : ContextId) (n : Nat) (w : World) :
    w.Written (tellRounds fiber n w) := by
  induction n with
  | zero => exact .refl w
  | succ n ih => exact ih.trans (written_tellRound fiber n _)

end

end Generator

end Fibers
