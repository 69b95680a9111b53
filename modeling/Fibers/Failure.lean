import Fibers.Handle
import Fibers.Host
import Fibers.Stack.Allocator

/-!
# Failures that can be handled

Two things can go wrong without ending a run: a fiber cannot be built, or a checked switch is
refused.  Only a refusal hands a context back.
-/

namespace Fibers

/--
A checked switch that was refused: the handle comes back, with the binding and the host that do not
agree.
-/
structure Refusal where
  handle : Handle
  binding : Affinity
  host : Host
deriving DecidableEq

def Refusal.text (hosts : HostTable) (r : Refusal) : String :=
  "fiber " ++ r.handle.text ++ " is bound to " ++ hosts.affinityText r.binding ++
    " and cannot be resumed from " ++ hosts.text r.host

inductive Failure where
  | build (cause : BuildError)
  | refused (refusal : Refusal)
deriving DecidableEq

namespace Failure

/-- The handle that a failure gives back. -/
def handle : Failure -> Handle
  | build _ => .empty
  | refused refusal => refusal.handle

def text (hosts : HostTable) : Failure -> String
  | build cause => cause.text
  | refused refusal => refusal.text hosts

/-- The text of a failure for debugging, which is no other. -/
def debugText (hosts : HostTable) (f : Failure) : String := f.text hosts

end Failure

end Fibers
