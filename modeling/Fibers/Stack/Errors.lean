/-!
# Why a fiber cannot be built

Either no stack was handed out, or one that is too small.  A failure is reported with its numbers and
its text.
-/

namespace Fibers

inductive StackError where
  /-- More was asked for than the given maximum; without a number, than what the system has. -/
  | exceedsMaximum (maximum : Option Nat)
  /-- The system has no room for a stack of this size. -/
  | outOfMemory
  | failed (message : String)
deriving DecidableEq

/-- The text of an allocator's failure.  The system's own maximum is written as a star. -/
def StackError.text : StackError -> String
  | .exceedsMaximum maximum =>
      "Requested more than max size of " ++ (maximum.elim "*" toString) ++ " bytes for a stack"
  | .outOfMemory => "Cannot allocate memory (os error 12)"
  | .failed message => message

inductive BuildError where
  | allocation (cause : StackError)
  | stackTooSmall (size required : Nat)
deriving DecidableEq

namespace BuildError

def variant : BuildError -> String
  | allocation _ => "Allocation"
  | stackTooSmall _ _ => "StackTooSmall"

def text : BuildError -> String
  | allocation cause => "failed to allocate fiber stack: " ++ cause.text
  | stackTooSmall size required =>
      "fiber stack of " ++ toString size ++ " bytes is too small, need at least " ++
        toString required

end BuildError

end Fibers
