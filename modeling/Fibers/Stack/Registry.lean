import Fibers.Stack.Region

/-!
# The registry of fiber stacks

Every stack that a fiber lives on is registered under its bottom.  What kind of stack some code runs
on is decided by an address on it: the registered range with the greatest bottom that is not above
the address is looked at, and no other.
-/

namespace Fibers

/-- The two kinds of stack that code can run on. -/
inductive StackKind where
  /-- The stack that a thread was started with; it stays with its thread. -/
  | native
  /-- The stack of a fiber; any thread may carry it on. -/
  | fiber
deriving DecidableEq, Inhabited

namespace StackKind

/-- Whether code on such a stack may be resumed by another thread. -/
def canMove (k : StackKind) : Bool := k = fiber

def text : StackKind -> String
  | native => "Native"
  | fiber => "Fiber"

end StackKind

/-- The registered ranges by rising bottom, no two with the same one. -/
structure Registry where
  ranges : List Region := []
deriving Inhabited

namespace Registry

/-- Puts a range where its bottom belongs, in place of one with the same bottom. -/
def insertRange (r : Region) : List Region -> List Region
  | [] => [r]
  | s :: rest =>
      if r.bottom < s.bottom then r :: s :: rest
      else if r.bottom = s.bottom then r :: rest
      else s :: insertRange r rest

def insert (g : Registry) (r : Region) : Registry := ⟨insertRange r g.ranges⟩

/-- Takes out the range that starts where this one does. -/
def erase (g : Registry) (r : Region) : Registry :=
  ⟨g.ranges.filter (fun s => s.bottom ≠ r.bottom)⟩

/-- The last range whose bottom is not above the address. -/
def lastBelow (g : Registry) (a : Nat) : Option Region :=
  (g.ranges.takeWhile (fun s => s.bottom ≤ a)).getLast?

/-- The kind of the stack that an address lies on. -/
def kindAt (g : Registry) (a : Nat) : StackKind :=
  match g.lastBelow a with
  | some r => if a < r.top then .fiber else .native
  | none => .native

end Registry

end Fibers
