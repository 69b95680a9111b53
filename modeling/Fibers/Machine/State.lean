import Fibers.Machine.Frame

/-!
# States of the machine

One context runs, all others are parked.  Besides their stacks there is a *world* that they share:
the globals, the cells, the stacks in use, the counts, and the log.
-/

namespace Fibers

/-! ## The shared world -/

/-- What all contexts share.  The log is kept with its latest entry first. -/
structure World where
  hosts : HostTable
  globals : List (String × Handle) := []
  cells : List (String × UInt64) := []
  memory : Memory := {}
  registry : Registry := {}
  /-- An address on the stack of each context.  That of the main program's lies in the first page. -/
  address : ContextId -> Nat := fun _ => 0
  /-- Guards made and not dropped. -/
  liveGuards : Int := 0
  /-- Stacks handed out by a program's own allocators and not given back. -/
  liveStacks : Int := 0
  log : List LogEntry := []

namespace World

def report (w : World) (e : LogEntry) : World := { w with log := e :: w.log }

def trace (w : World) (e : TraceEvent) : World := w.report (.traced e)

def note (w : World) (label : String) (n : Note) : World := w.report (.noted label n)

/-- The kind of the stack that a context is on, as an address on it tells. -/
def kindOf (w : World) (c : ContextId) : StackKind := w.registry.kindAt (w.address c)

/-- The value of a cell; a cell that was never set holds zero. -/
def cell (w : World) (name : String) : UInt64 := (w.cells.lookup name).getD 0

def setCell (w : World) (name : String) (value : UInt64) : World :=
  { w with cells := (name, value) :: w.cells.filter (fun entry => entry.1 ≠ name) }

/-- The value of a source.  Numbers are taken modulo the size of a word. -/
def read (w : World) : CellSource -> UInt64
  | .number n => UInt64.ofInt n
  | .cell name => w.cell name

end World

/-! ## States -/

/-- What a context is told when control comes to it. -/
inductive Message where
  /-- Control is handed over: the sender is suspended, and its handle comes along. -/
  | handover
  /-- The sender has left no handle behind. -/
  | farewell
  /-- The receiver has to unwind, and then to hand control to the sender. -/
  | eviction
  /-- The sender's query is to be answered, and control to go straight back. -/
  | query
deriving DecidableEq

/-- What a switch brings to the context it lands in. -/
inductive Signal where
  | message (message : Message)
  /-- The sender's function is to run here before anything else. -/
  | onTop
  /-- The sender is over, and its stack is to be given back before anything else. -/
  | exit
  /-- The first switch into a new fiber, with the record that it lives by. -/
  | start (record : Option Record)

/-- What happens next: the topmost frame goes on, or a switch from another context lands. -/
inductive Control where
  | run
  | landed (source : ContextId) (signal : Signal)

/--
A state: the running context with its stack, all contexts that are there, and the world.  Each
context is listed with the stack that it was parked with; that of the running one is in use, and
none is listed for it.
-/
structure State where
  world : World
  running : ContextId
  stack : List Frame
  contexts : List (ContextId × List Frame)
  control : Control

/-! ## The list of contexts

Contexts stay in the order in which they were made, whichever of them runs.  So a context that is
left and comes back as it was leaves no mark on the list.
-/

def replaceStack (c : ContextId) (stack : List Frame) :
    List (ContextId × List Frame) -> List (ContextId × List Frame)
  | [] => []
  | (d, old) :: rest => if d = c then (d, stack) :: rest else (d, old) :: replaceStack c stack rest

theorem replaceStack_of_lookup {c : ContextId} {stack : List Frame}
    {contexts : List (ContextId × List Frame)} (h : contexts.lookup c = some stack) :
    replaceStack c stack contexts = contexts := by
  induction contexts with
  | nil => rfl
  | cons entry rest ih =>
      obtain ⟨d, old⟩ := entry
      by_cases hd : d = c
      · subst hd
        simp only [List.lookup_cons, beq_self_eq_true] at h
        simp_all [replaceStack]
      · have hne : (c == d) = false := by simpa using Ne.symm hd
        simp only [List.lookup_cons, hne] at h
        simp [replaceStack, hd, ih h]

theorem replaceStack_replaceStack {c : ContextId} {first second : List Frame}
    {contexts : List (ContextId × List Frame)} :
    replaceStack c second (replaceStack c first contexts) = replaceStack c second contexts := by
  induction contexts with
  | nil => rfl
  | cons entry rest ih =>
      obtain ⟨d, old⟩ := entry
      by_cases hd : d = c
      · simp [replaceStack, hd]
      · simp [replaceStack, hd, ih]

theorem replaceStack_comm {c d : ContextId} (hcd : c ≠ d) {sc sd : List Frame}
    {contexts : List (ContextId × List Frame)} :
    replaceStack c sc (replaceStack d sd contexts) =
      replaceStack d sd (replaceStack c sc contexts) := by
  induction contexts with
  | nil => rfl
  | cons entry rest ih =>
      obtain ⟨e, old⟩ := entry
      by_cases hc : e = c
      · subst hc
        simp [replaceStack, hcd]
      · by_cases hd : e = d
        · subst hd
          simp [replaceStack, hc]
        · simp [replaceStack, hc, hd, ih]

theorem lookup_replaceStack_of_ne {c d : ContextId} (hcd : c ≠ d) {stack : List Frame}
    {contexts : List (ContextId × List Frame)} :
    (replaceStack d stack contexts).lookup c = contexts.lookup c := by
  induction contexts with
  | nil => rfl
  | cons entry rest ih =>
      obtain ⟨e, old⟩ := entry
      by_cases he : e = d
      · subst he
        have hne : (c == e) = false := by simpa using hcd
        simp [replaceStack, List.lookup_cons, hne]
      · simp [replaceStack, he, List.lookup_cons, ih]

namespace State

/-- The kind of the stack that the running code is on. -/
def kind (s : State) : StackKind := s.world.kindOf s.running

/-- The stack that a context is parked with. -/
def parked? (s : State) (c : ContextId) : Option (List Frame) := s.contexts.lookup c

end State

/-! ## Ends -/

/-- A breach of the switching protocol, after which nothing can go on. -/
inductive Violation where
  | nativeStackUnwound
  | emptyResult
  | bodyPanicked (payload : Payload)
  | onTopPanicked (payload : Payload)
  | notParkedAfterStart
  | probeMismatched
  | probeNotReturned
  | probeNotAnswered
  | abandonedDidNotTerminate
  | startedWithoutRecord
  | terminatedWasResumed
  | dispatchedTwice
  | onTopRanTwice
deriving DecidableEq

def Violation.message : Violation -> String
  | nativeStackUnwound => "a thread's native stack cannot be unwound"
  | emptyResult => "fiber body returned an empty handle"
  | bodyPanicked payload => "fiber body panicked: " ++ payload.message
  | onTopPanicked payload => "on-top function panicked: " ++ payload.message
  | notParkedAfterStart => "fiber did not park after bootstrap"
  | probeMismatched => "mismatched probe answer"
  | probeNotReturned => "probe was not bounced back"
  | probeNotAnswered => "probe was not answered"
  | abandonedDidNotTerminate => "abandoned fiber did not terminate"
  | startedWithoutRecord => "fiber started without a record"
  | terminatedWasResumed => "terminated fiber was resumed"
  | dispatchedTwice => "fiber dispatched twice"
  | onTopRanTwice => "on-top function ran twice"

inductive Abort where
  | violation (breach : Violation)
  /--
  An unwind escaped from something dropped by an earlier unwind of the same stack, or from the end
  of a stack that was already on its way out.
  -/
  | doubleUnwind
deriving DecidableEq

/-- The text that an abort is reported with, if any. -/
def Abort.message? : Abort -> Option String
  | violation breach => some breach.message
  | doubleUnwind => none

inductive Outcome where
  | finished
  | panicked (payload : Payload)
  | aborted (cause : Abort)
  | stuck
deriving DecidableEq

/-- A run goes on in a state, or has ended. -/
inductive Config where
  | active (state : State)
  | halted (outcome : Outcome) (world : World)

namespace State

/-- The run goes on with a changed world and stack. -/
def go (s : State) (w : World) (stack : List Frame) : Config :=
  .active { s with world := w, stack := stack, control := .run }

def breach (s : State) (v : Violation) : Config := .halted (.aborted (.violation v)) s.world

def stuck (s : State) : Config := .halted .stuck s.world

end State

end Fibers
