import Fibers.Failure
import Fibers.Program
import Fibers.Stack.Registry

/-!
# What a run reports

A run leaves a log behind.  Running code notes the results of its operations under its own label;
guards and a program's own allocators report when they are dropped or called, and on what kind of
stack; and the switching itself is traced.
-/

namespace Fibers

/-- What a suspended context can be asked for by a probe. -/
inductive Query where
  | affinity
  | stackKind
deriving DecidableEq

def Query.text : Query -> String
  | affinity => "Affinity"
  | stackKind => "StackKind"

/-- The result of an operation. -/
inductive Note where
  | buildFailed (cause : BuildError)
  | resumed (handle : Handle)
  | refused (refusal : Refusal)
  | canResume (answer : Bool)
  | canResumeAnywhere (answer : Bool)
  | affinity (answer : Affinity)
  | stackKind (answer : StackKind)
  | isEmpty (answer : Bool)
  | display (handle : Handle)
  | debug (handle : Handle)
  | compared (a b : Handle)
  | collected (handles : List Handle)
  | caught (message : String)
  | rethrown
  | swallowed
  | said (message : String)
  | place (kind : StackKind)
  | cell (name : String) (value : UInt64)
  | comparedHosts (a b : Host)
  | permission (binding : Affinity) (host : Host)
  | currentHost (host : Host)
  | defaultAffinity (binding : Affinity)
  | stackSettings (settings : SystemStacks)
deriving DecidableEq

/-- A step of the switching machinery, as traced. -/
inductive TraceEvent where
  /-- The making of a fiber begins: a span is made and entered, and left when it is over. -/
  | spanMade (name : Option String)
  | spanEntered
  | spanLeft
  | registering (stack : Region)
  | created (fiber : ContextId)
  | probed (fiber : ContextId) (query : Query)
  | refusing (host : Host) (binding : Affinity)
  | resuming (target : ContextId) (host : Host)
  | resumingOnTop (target : ContextId) (host : Host)
  | dispatching (name : Option String)
  | abandoned (fiber : ContextId)
  | forcedUnwind (requester : ContextId)
  | exiting (name : Option String)
  | releasing (name : Option String)
deriving DecidableEq

inductive LogEntry where
  | noted (label : String) (note : Note)
  | dropped (guard : String) (kind : StackKind)
  | allocated (allocator : String) (kind : StackKind)
  | deallocated (allocator : String) (kind : StackKind)
  | ended
  | traced (event : TraceEvent)
deriving DecidableEq

def LogEntry.isTrace : LogEntry -> Bool
  | traced _ => true
  | _ => false

end Fibers
