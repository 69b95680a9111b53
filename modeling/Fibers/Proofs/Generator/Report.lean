import Fibers.Proofs.Generator.Count
import Fibers.Proofs.Generator.Course

/-!
# What is printed

The lines that are printed about a run are read off its log.  Together with the log of every run and
with the reading of the arguments, this tells what the command prints for any arguments: the
Fibonacci numbers modulo the size of a word, as many as were asked for.
-/

namespace Fibers

namespace Generator

/-! ## Lines -/

/-- The line about the number with the given index. -/
def numberLine (i : Nat) : String :=
  "fib(" ++ toString i ++ ") = " ++ toString (Nat.fib i % 2 ^ 64)

/-- All lines, if so many numbers are asked for. -/
def linesOf (n : Nat) : List String :=
  ["created generator 0x*, can resume here: true, from any thread: true"] ++
    (List.range n).map numberLine ++
    [if n = 0 then "generator is Unbound, dropping it"
      else "generator is Bound(host#1), dropping it",
      "generator unwound"]

/-- The sum of the two numbers before it does not fit a word any more. -/
example : numberLine 94 = "fib(94) = 1293530146158671551" := by rfl

section

variable (hosts : HostTable) (fiber : ContextId) (rest : List LogEntry)

/-- A round is told by its number alone. -/
theorem linesFrom_roundLog (i : Nat) :
    linesFrom hosts i (roundLog fiber i ++ rest) =
      numberLine i :: linesFrom hosts (i + 1) rest := by
  cases i <;> rfl

theorem linesFrom_rounds (i k : Nat) :
    linesFrom hosts i ((List.range' i k).flatMap (roundLog fiber) ++ rest) =
      (List.range' i k).map numberLine ++ linesFrom hosts (i + k) rest := by
  induction k generalizing i with
  | zero => rfl
  | succ k ih =>
      rw [List.range'_succ, List.flatMap_cons, List.append_assoc, linesFrom_roundLog, ih,
        List.map_cons, List.cons_append, Nat.add_right_comm, Nat.add_assoc]

/-- The lines about a run are its numbers, and what was told before and after them. -/
theorem linesFrom_course (n : Nat) :
    linesFrom (unnamedHosts hosts) 0 (course fiber n) = linesOf n := by
  have hrounds := linesFrom_rounds (unnamedHosts hosts) fiber
    [.noted "main" (.affinity (bindingAfter default n)),
      .noted "main" (.said "generator unwound"), .ended] 0 n
  rw [<- List.range_eq_range', Nat.zero_add] at hrounds
  have hlast : linesFrom (unnamedHosts hosts) n
      [.noted "main" (.affinity (bindingAfter default n)),
        .noted "main" (.said "generator unwound"), .ended] =
      [if n = 0 then "generator is Unbound, dropping it"
        else "generator is Bound(host#1), dropping it", "generator unwound"] := by
    cases n <;> rfl
  rw [hlast] at hrounds
  exact congrArg (_ :: ·) hrounds

end

/-! ## Reports -/

/--
Arguments ask for one number of Fibonacci numbers, ten if they do not say how many, and the command
tells of a generator that hands over just these, modulo the size of a word, and is then unwound.
-/
theorem fibonacci_reported (args : List String) :
    exists n, (forall m, Asks args m ↔ m = n) ∧ report args = ⟨linesOf n, 0⟩ := by
  refine ⟨countOf args, fun m => asks_iff, ?_⟩
  rcases run_program (Nat.le_of_lt (countOf_lt args)) with ⟨fiber, hfinished, hcourse⟩
  rw [report, Report.ofAnswer, hfinished, hcourse, linesFrom_course]

end Generator

end Fibers
