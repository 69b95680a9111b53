import Fibers.Run

/-!
# A generator

A fiber that yields the Fibonacci numbers, in words of 64 bits, one each time it is resumed.  It
never comes to an end by itself; dropping its handle unwinds it.

Programs have neither local variables nor values that may be missing, so three things are put in
other words here, none of which can be told from a run:

* The pair of numbers to go on with belongs to the generator alone.  It is kept in the cells `a` and
  `b`, and the sum on its way from one to the other in `sum`, which no other code reads or writes.
* The cell in which a number is handed over is empty until the generator fills it, and to look at it
  empties it again; nothing would be printed if it were found empty.  The generator fills it before
  each switch back and the main program looks at it once after each, so it is never found empty, and
  an emptied cell is filled before anybody looks at it again.  A cell that keeps its number does the
  same.
* Building the generator and resuming it with a check may fail, and a failure ends the main program
  at once.  Here a failed build stores no handle and a refusal hands the handle back, and the code
  after it goes on.  Neither comes about: the system grants the stack, and whatever the generator is
  bound to is the host that resumes it.
-/

namespace Fibers

namespace Generator

def slot : SlotName := .own "generator"

/-- The cell in which a number is handed over. -/
def output : String := "out"

/-- More rounds than a generator is ever asked for. -/
def endless : Nat := wordLimit

/-- One round: hands over the first of two numbers, moves on to the next pair, and switches back. -/
def roundOps : List Op :=
  [ .setCell output (.cell "a"),
    .setCell "sum" (.cell "a"), .addCell "sum" (.cell "b"),
    .setCell "a" (.cell "b"), .setCell "b" (.cell "sum"),
    .resume ⟨.own "caller", false, none, .own "caller", .keep⟩ ]

def body : List Op := [.setCell "a" (.number 0), .setCell "b" (.number 1), .rounds endless roundOps]

/-- The main code: makes a generator, asks it for so many numbers, and drops it. -/
def mainOps (count : Nat) : List Op :=
  [ .create ⟨slot, "fibonacci", some "fibonacci", .system ⟨64 * 1024, true⟩⟩ [] [] body,
    .display slot, .ask (.canResume none) slot, .ask .canResumeAnywhere slot,
    .rounds count [.resume ⟨slot, true, none, slot, .keep⟩, .printCell output],
    .ask .affinity slot,
    .drop slot,
    .say "generator unwound" ]

def program (count : Nat) : Program := ⟨[], mainOps count⟩

/-! ## Arguments -/

def digit? (c : Char) : Option Nat :=
  if '0' ≤ c ∧ c ≤ '9' then some (c.toNat - '0'.toNat) else none

/-- The value of decimal digits that follow others. -/
def digitsValue? (value : Nat) : List Char -> Option Nat
  | [] => some value
  | c :: rest => (digit? c).bind fun d => digitsValue? (10 * value + d) rest

/--
Reads a count: decimal digits, at least one, with a plus sign or without, of a value that fits a
word.
-/
def count? (text : String) : Option Nat :=
  let digits :=
    match text.toList with
    | '+' :: rest => rest
    | cs => cs
  match digits with
  | [] => none
  | _ :: _ => (digitsValue? 0 digits).filter (· < wordLimit)

/-- How many numbers are asked for if nothing else is said. -/
def defaultCount : Nat := 10

def countOf (args : List String) : Nat := (args.head?.bind count?).getD defaultCount

/-! ## What is told about a run -/

/-- The lines about the notes of a run, the next number being the one with the given index. -/
def linesFrom (hosts : HostTable) : Nat -> List LogEntry -> List String
  | i, .noted _ (.display h) :: .noted _ (.canResume here) ::
      .noted _ (.canResumeAnywhere anywhere) :: rest =>
      ("created generator " ++ h.text ++ ", can resume here: " ++ toString here ++
        ", from any thread: " ++ toString anywhere) :: linesFrom hosts i rest
  | i, .noted _ (.cell _ value) :: rest =>
      ("fib(" ++ toString i ++ ") = " ++ toString value.toNat) :: linesFrom hosts (i + 1) rest
  | i, .noted _ (.affinity binding) :: rest =>
      ("generator is " ++ hosts.affinityText binding ++ ", dropping it") :: linesFrom hosts i rest
  | i, .noted _ (.said message) :: rest => message :: linesFrom hosts i rest
  | i, _ :: rest => linesFrom hosts i rest
  | _, [] => []

/-- The host names here are their numbers. -/
def unnamedHosts (hosts : HostTable) : HostTable := { hosts with named := [] }

/-- What a run leaves to tell: the lines, and a status that is zero if it came to its end. -/
structure Report where
  lines : List String
  status : Nat

def Report.ofAnswer (a : Answer) : Report where
  lines := linesFrom (unnamedHosts a.hosts) 0 a.untraced
  status :=
    match a.outcome with
    | .finished => 0
    | _ => 1

/-- Asks a generator for as many numbers as the arguments say. -/
def report (args : List String) : Report := .ofAnswer (program (countOf args)).run

end Generator

end Fibers
