import Fibers.Proofs.Probe.Bounce

/-!
# Spines

What a stack is waiting in is told by few of its frames: the calls in which control has left it, the
functions that were put on top, and the lowest frame.  These are its *spine*.  All else on a stack is
code and what that code drops.  A step puts one frame on the spine of the running context's stack,
takes one away, brings the lowest one to its next stage, or leaves the spine as it is.
-/

namespace Fibers

/-! ## Frames of the spine -/

/-- Code, or something that is dropped: neither a wait to be resumed nor the lower end of code. -/
def Frame.isInner : Frame -> Bool
  | code _ | discarding _ _ | dropping => true
  | calling (.resume _ _ _) _ => false
  | calling _ _ => true
  | onTop _ | base _ | root _ => false

def spine (stack : List Frame) : List Frame := stack.filter fun f => !f.isInner

section Spine

variable (below : List Frame)

@[simp] theorem spine_code (a : Activation) : spine (.code a :: below) = spine below := rfl

@[simp] theorem spine_discarding (entries : List Entry) (cause : Option Unwind) :
    spine (.discarding entries cause :: below) = spine below := rfl

@[simp] theorem spine_dropping : spine (.dropping :: below) = spine below := rfl

@[simp] theorem spine_resume (host : Host) (onTop : Option Closure) (target : SlotName)
    (a : Activation) : spine (.calling (.resume host onTop target) a :: below) =
      .calling (.resume host onTop target) a :: spine below := rfl

@[simp] theorem spine_create (slot : SlotName) (a : Activation) :
    spine (.calling (.create slot) a :: below) = spine below := rfl

@[simp] theorem spine_failBuild (cause : BuildError) (a : Activation) :
    spine (.calling (.failBuild cause) a :: below) = spine below := rfl

@[simp] theorem spine_probe (query : Query) (reply : Option Reply) (purpose : ProbePurpose)
    (a : Activation) : spine (.calling (.probe query reply purpose) a :: below) = spine below := rfl

@[simp] theorem spine_refuse (refusal : Refusal) (slot : SlotName) (onRefusal : OnRefusal)
    (a : Activation) :
    spine (.calling (.refuse refusal slot onRefusal) a :: below) = spine below := rfl

@[simp] theorem spine_store (pending : List (SlotName × Handle)) (note : Option Note)
    (a : Activation) : spine (.calling (.store pending note) a :: below) = spine below := rfl

@[simp] theorem spine_onTop (source : ContextId) :
    spine (.onTop source :: below) = .onTop source :: spine below := rfl

@[simp] theorem spine_base (stage : FiberStage) :
    spine (.base stage :: below) = .base stage :: spine below := rfl

@[simp] theorem spine_root (stage : RootStage) :
    spine (.root stage :: below) = .root stage :: spine below := rfl

@[simp] theorem spine_append (above : List Frame) :
    spine (above ++ below) = spine above ++ spine below := List.filter_append ..

@[simp] theorem spine_dropFirst (entries : List Entry) :
    spine (dropFirst entries below) = spine below := by
  cases entries <;> rfl

end Spine

namespace State

/-! ## Departures and probes -/

/--
The switch that the next step makes, unless its handle is empty: by an operation, or after a probe if
its affinity is checked.
-/
def switch? (s : State) : Option SwitchSpec :=
  match s.operation?, s.control, s.stack with
  | some (.resume switch), _, _ | some (.resumeWith switch _ _ _), _, _ =>
      if switch.checked then none else some switch
  | none, .landed _ (.message .handover),
      .calling (.probe _ (some (.affinity binding)) (.check switch _)) _ :: _ =>
      if binding.allows (s.world.hosts.resolve switch.host) then some switch else none
  | _, _, _ => none

/-- The next step probes a context, for a question or before a resume call that is checked. -/
inductive Probes (s : State) : ProbePurpose -> Prop where
  | question {question : Question} {slot : SlotName} :
      s.operation? = some (.ask question slot) -> Probes s (.question question slot)
  | plain {switch : SwitchSpec} :
      s.operation? = some (.resume switch) -> switch.checked = true -> Probes s (.check switch none)
  | carrying {switch : SwitchSpec} {captures : List String} {moves : List SlotName}
      {onTop : List Op} (f : Closure) :
      s.operation? = some (.resumeWith switch captures moves onTop) -> switch.checked = true ->
        Probes s (.check switch (some f))

end State

end Fibers
