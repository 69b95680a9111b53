import Fibers.Log

/-!
# Stacks of frames

The stack of a context is a list of frames, the topmost first.  Running code is one frame; what it
waits for, what is being dropped above it, and the boundaries that stop an unwind are frames of
their own.  Frames hold handles and closures as values, so a context owns exactly what its frames
hold.
-/

namespace Fibers

/-! ## What code owns -/

/--
Something that running code has declared: a slot with its handle, or a guard with what it does at
the end.
-/
inductive Entry where
  | slot (name : SlotName) (handle : Handle)
  | guard (label : String) (onDrop : List Op)

/-- A handle that is owned without having a name. -/
def Entry.unnamed (h : Handle) : Entry := slot (.own "") h

/-- Code that can be called once, with what it has captured, the last captured entry first. -/
structure Closure where
  label : String
  captured : List Entry
  argument : SlotName
  code : List Op

/-- What remains to be dropped of a closure that may have been called. -/
def Closure.leftover : Option Closure -> List Entry
  | some f => f.captured
  | none => []

/-! ## Running code -/

/-- The ways in which code is nested, which decide what follows the end of a block. -/
inductive BlockKind where
  | body
  | scope
  /-- So many rounds are left after this one. -/
  | rounds (left : Nat) (code : List Op)
  | whileLive (slot : SlotName) (left : Nat) (code : List Op)
  | attempt (swallow : Bool)

def BlockKind.isLoop : BlockKind -> Bool
  | rounds _ _ | whileLive _ _ _ => true
  | _ => false

/-- A block: what is left to do in it, and what has been declared in it, the last entry first. -/
structure Block where
  kind : BlockKind
  code : List Op
  entries : List Entry

/-- How code goes on: with its next operation, out of a loop, or to its end with a result. -/
inductive Flow where
  | onward
  | leavingLoop
  | returning (result : Handle)

def Flow.result : Flow -> Handle
  | returning result => result
  | _ => .empty

/-- What code is run as, which decides what becomes of its result. -/
inductive Role where
  /-- A body or a function on top: its caller takes the result, by default what its argument has. -/
  | called (argument : SlotName)
  /-- The main program: a result is dropped when all of it is closed. -/
  | program
  /-- What a guard does: a result is dropped while the body is still open. -/
  | cleanup

/-- Running code: its label, its role, and its open blocks, the innermost first. -/
structure Activation where
  label : String
  role : Role
  blocks : List Block
  flow : Flow

/--
The activation of a closure that is called with a handle: the argument is the last entry of its
body.
-/
def Closure.activation (f : Closure) (argument : Handle) : Activation where
  label := f.label
  role := .called f.argument
  blocks := [⟨.body, f.code, .slot f.argument argument :: f.captured⟩]
  flow := .onward

/-- The activation of code that is not called with anything. -/
def Activation.ofCode (role : Role) (label : String) (code : List Op) : Activation where
  label := label
  role := role
  blocks := [⟨.body, code, []⟩]
  flow := .onward

/-! ## Waiting code -/

/--
What unwinds a stack: a panic, or a context that wants this one gone and takes over in the end.
-/
inductive Unwind where
  | panic (payload : Payload)
  | forced (requester : ContextId)

inductive Reply where
  | affinity (answer : Affinity)
  | stackKind (answer : StackKind)
deriving DecidableEq

/--
Why a context is probed: for a question of the program's, or before a switch with a checked
affinity.
-/
inductive ProbePurpose where
  | question (question : Question) (slot : SlotName)
  | check (switch : SwitchSpec) (onTop : Option Closure)

/-- What running code is in the middle of. -/
inductive Call where
  /-- A fiber has been made, and has yet to park. -/
  | create (slot : SlotName)
  /-- A fiber could not be made, and its closure is being dropped. -/
  | failBuild (cause : BuildError)
  | probe (query : Query) (reply : Option Reply) (purpose : ProbePurpose)
  /--
  Control has gone to another context, from the given host.  The function is there until it is
  called.
  -/
  | resume (host : Host) (onTop : Option Closure) (target : SlotName)
  /-- A switch was refused, and the function that should have run is being dropped. -/
  | refuse (refusal : Refusal) (slot : SlotName) (onRefusal : OnRefusal)
  /--
  Handles go back into slots, each drop of a replaced one being waited for, and then a note is made.
  -/
  | store (pending : List (SlotName × Handle)) (note : Option Note)

/-! ## The ends of a stack -/

/-- What is known of a fiber for as long as its stack is there. -/
structure Lease where
  name : Option String
  stack : Region
  /-- The program's own allocator that the stack goes back to. -/
  owner : Option String
deriving DecidableEq

/-- What a fiber starts from: its lease, and its body until that is called. -/
structure Record where
  lease : Lease
  body : Option Closure

/-- Why a fiber is over, which decides where control goes next. -/
inductive Ending where
  /-- The body has returned the handle of this context. -/
  | returned (next : ContextId)
  /-- The fiber was unwound for this context. -/
  | unwound (requester : ContextId)
deriving DecidableEq

def Ending.next : Ending -> ContextId
  | returned next => next
  | unwound requester => requester

/-- The lowest frame of a fiber, by the stages of its life. -/
inductive FiberStage where
  /-- Control has never been here. -/
  | unborn
  /-- Parked, until somebody wants the body to run. -/
  | idle (record : Record)
  | busy (lease : Lease)
  /-- The body is over, and control is about to leave. -/
  | leaving (lease : Lease) (ending : Ending)
  /-- Control has left for good. -/
  | exited (lease : Lease)

/-- The lowest frame of the main program, by the stages of a run. -/
inductive RootStage where
  | program
  | ending
  /--
  The globals are dropped: the names left in this round, and whether it has found a live handle.
  -/
  | draining (roundsLeft : Nat) (names : List String) (found : Bool) (panic : Option Payload)

/-- At the end of a run, the globals are gone through at most this often. -/
def drainRounds : Nat := 100

/-! ## Frames -/

inductive Frame where
  | code (activation : Activation)
  | calling (call : Call) (activation : Activation)
  /-- Drops entries one by one; with a cause, as a part of that unwind. -/
  | discarding (entries : List Entry) (cause : Option Unwind)
  /-- Waits for an abandoned fiber to be gone. -/
  | dropping
  /-- A function runs above, on top of whatever is parked below.  The source is not owned here. -/
  | onTop (source : ContextId)
  | base (stage : FiberStage)
  | root (stage : RootStage)

end Fibers
