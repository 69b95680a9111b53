import Fibers.Stack.Region

/-!
# Handles

A context is named by the number of its stack, so no two contexts ever share a name.  A *handle*
owns a suspended context, or is empty.  Handles are compared by the context they name, which makes
them keys for ordered and for hashed collections: every empty handle is equal to every other and
below all that are live.
-/

namespace Fibers

/--
The name of a context.  Stacks are numbered as they are handed out, and a fiber has the number of its
stack.
-/
abbrev ContextId := Nat

/-- A handle of a suspended context, or none. -/
inductive Handle where
  | empty
  | live (context : ContextId)
deriving DecidableEq, Inhabited

namespace Handle

def isEmpty : Handle -> Bool
  | empty => true
  | live _ => false

/-- The text of a handle: a masked address, or a word for the lack of one. -/
def text : Handle -> String
  | empty => "\x7bnot-a-fiber\x7d"
  | live _ => "0x*"

def debugText (h : Handle) : String := "Fiber(" ++ h.text ++ ")"

/-! ## Comparison -/

/--
Empty handles come first; the live ones go by the names of their contexts.  Any numbers that tell the
contexts apart would do, such as the addresses at which they are suspended.
-/
def order : Handle -> Handle -> Ordering
  | empty, empty => .eq
  | empty, live _ => .lt
  | live _, empty => .gt
  | live a, live b => compare a b

/-- What can be said of two handles without showing addresses. -/
inductive Relation where
  | equal
  | less
  | greater
  | distinct
deriving DecidableEq

def relation (a b : Handle) : Relation :=
  match a, b, order a b with
  | _, _, .eq => .equal
  | live _, live _, _ => .distinct
  | _, _, .lt => .less
  | _, _, .gt => .greater

/-- Whether the order agrees with its converse and with equality. -/
def isConsistent (a b : Handle) : Bool :=
  order b a = (order a b).swap && (order a b != .eq) = decide (a ≠ b)

def Relation.text : Relation -> String
  | equal => "equal"
  | less => "less"
  | greater => "greater"
  | distinct => "distinct"

/-! ## Collections -/

/-- Puts a handle into a rising list of different handles; one that is there already stays. -/
def insertOrdered (h : Handle) : List Handle -> List Handle
  | [] => [h]
  | k :: rest =>
      match order h k with
      | .lt => h :: k :: rest
      | .eq => k :: rest
      | .gt => k :: insertOrdered h rest

def orderedSet (hs : List Handle) : List Handle := hs.foldl (fun set h => insertOrdered h set) []

/-- The different handles among some, for a set by equality. -/
def distinctSet (hs : List Handle) : List Handle :=
  hs.foldl (fun set h => if h ∈ set then set else h :: set) []

end Handle

end Fibers
