import Fibers.Host
import Fibers.Stack.Allocator

/-!
# Programs

A program is a list of operations on *slots*, places that hold a handle each.  The same operations
are the code of fiber bodies, of functions that run on top of another context, and of what guards do
when they are dropped.
-/

namespace Fibers

/-! ## Parts of operations -/

/-- The name of a slot, which belongs to the code that declares it or is shared by all. -/
inductive SlotName where
  | own (name : String)
  | shared (name : String)
deriving DecidableEq, Inhabited

/-- Reads a name: those that start with `@` are shared. -/
def SlotName.ofText (text : String) : SlotName :=
  match text.toList with
  | '@' :: _ => shared text
  | _ => own text

/-- What a panic carries: a text or something else. -/
inductive Payload where
  | text (message : String)
  | other
deriving DecidableEq

def Payload.message : Payload -> String
  | text message => message
  | other => "unknown panic"

inductive CellSource where
  | number (n : Int)
  | cell (name : String)
deriving DecidableEq

/--
A fiber to be made: the slot for its handle, its label, its own name, and where its stack comes
from.
-/
structure FiberSpec where
  slot : SlotName
  label : String
  name : Option String
  allocator : Allocator

/-- What becomes of the handle that comes back with a refusal. -/
inductive OnRefusal where
  | keep
  | discard
deriving DecidableEq

/--
A switch to be made: the slot of the handle, whether affinity is checked first, the host it is made
from (without a name the program's own), and the slot for the handle that comes back.
-/
structure SwitchSpec where
  slot : SlotName
  checked : Bool
  host : Option String
  target : SlotName
  onRefusal : OnRefusal

/-- A question about a suspended context that runs none of its code. -/
inductive Question where
  | canResume (host : Option String)
  | canResumeAnywhere
  | affinity
  | stackKind
deriving DecidableEq

/-! ## Operations -/

inductive Op where
  /-- Makes a fiber that owns new guards with the given labels and what the given slots hold. -/
  | create (fiber : FiberSpec) (captures : List String) (moves : List SlotName) (body : List Op)
  | resume (switch : SwitchSpec)
  /-- Resumes a context and runs a function on its stack first. -/
  | resumeWith (switch : SwitchSpec) (captures : List String) (moves : List SlotName)
      (onTop : List Op)
  | ask (question : Question) (slot : SlotName)
  | drop (slot : SlotName)
  | move (slot target : SlotName)
  | isEmpty (slot : SlotName)
  | display (slot : SlotName)
  | debug (slot : SlotName)
  | compare (a b : SlotName)
  /-- Builds an ordered and a hashed set of the handles in some slots. -/
  | collect (slots : List SlotName)
  | guard (label : String) (onDrop : List Op)
  | scope (ops : List Op)
  | rounds (count : Nat) (ops : List Op)
  /-- At most `limit` rounds, as long as the slot holds a live handle. -/
  | whileLive (slot : SlotName) (limit : Nat) (ops : List Op)
  | leaveLoop
  /-- Leaves the running code with the handle in a slot as its result. -/
  | giveBack (slot : SlotName)
  | ifEmpty (slot : SlotName) (yes no : List Op)
  | ifCell (cell : String) (atLeast : Nat) (yes no : List Op)
  | panic (payload : Payload)
  | attempt (swallow : Bool) (ops : List Op)
  | say (message : String)
  | whereAmI
  | setCell (cell : String) (source : CellSource)
  | addCell (cell : String) (source : CellSource)
  | printCell (cell : String)
  | compareHosts (a b : String)
  | checkAffinity (binding : Option String) (host : String)
  | currentHost
  | defaultAffinity
  | describeStacks (settings : SystemStacks)
deriving Inhabited

/-- A program: the hosts it declares and its main code. -/
structure Program where
  hosts : List (String × HostSource)
  main : List Op

/-! ## A bound on the work in a program -/

mutual

/-- A number that grows with everything an operation can cause to be done. -/
def Op.work : Op -> Nat
  | .create _ captures moves body => 8 + captures.length + moves.length + Op.workOf body
  | .resumeWith _ captures moves onTop => 8 + captures.length + moves.length + Op.workOf onTop
  | .collect slots => 8 + slots.length
  | .guard _ onDrop => 8 + Op.workOf onDrop
  | .scope ops => 8 + Op.workOf ops
  | .rounds count ops => 8 + count * (8 + Op.workOf ops)
  | .whileLive _ limit ops => 8 + limit * (8 + Op.workOf ops)
  | .ifEmpty _ yes no => 8 + Op.workOf yes + Op.workOf no
  | .ifCell _ _ yes no => 8 + Op.workOf yes + Op.workOf no
  | .attempt _ ops => 8 + Op.workOf ops
  | _ => 8

def Op.workOf : List Op -> Nat
  | [] => 0
  | op :: rest => op.work + Op.workOf rest

end

/-- Every run of a program ends within this many steps. -/
def Program.stepBound (p : Program) : Nat := 256 * (Op.workOf p.main + 16)

end Fibers
