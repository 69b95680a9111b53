import Fibers.Machine.Slots

/-!
# Switching

A switch parks the running context and lets the target go on, with a signal that says why.  What a
context does with a signal depends on the topmost frame it is parked in: a switch that it made
itself, a probe, a fiber that it abandoned, or the lowest frame of a fiber that has not run yet.  A
context parked in a switch, or not yet run, answers probes and stays parked as it was.

A target that is not parked would leave the machine without a rule.
-/

namespace Fibers

/-- The frames under which some entries are dropped first, if there are any. -/
def dropFirst (entries : List Entry) (stack : List Frame) : List Frame :=
  match entries with
  | [] => stack
  | _ :: _ => .discarding entries none :: stack

/-- What has to be dropped when a handle is. -/
def Handle.entries : Handle -> List Entry
  | empty => []
  | live context => [Entry.unnamed (live context)]

namespace State

/-- Drops some entries as a part of an unwind, which then goes on below. -/
def raise (s : State) (w : World) (cause : Unwind) (entries : List Entry) (stack : List Frame) :
    Config :=
  s.go w (.discarding entries (some cause) :: stack)

/-! ## Departures -/

/-- Parks the running context with the given stack, and lands in another one. -/
def transfer (s : State) (w : World) (stack : List Frame) (target : ContextId) (signal : Signal) :
    Config :=
  match s.parked? target with
  | some (top :: below) =>
      .active
        { world := w
          running := target
          stack := top :: below
          contexts := replaceStack target [] (replaceStack s.running stack s.contexts)
          control := .landed s.running signal }
  | _ => .halted .stuck w

/-- Switches to another context in earnest, with a function to run on top of it or without. -/
def depart (s : State) (scene : Scene) (below : List Frame) (target : ContextId)
    (switch : SwitchSpec) (onTop : Option Closure) : Config :=
  let host := scene.world.hosts.resolve switch.host
  let waiting := .calling (.resume host onTop switch.target) scene.code :: below
  match onTop with
  | none =>
      s.transfer (scene.world.trace (.resuming target host)) waiting target (.message .handover)
  | some _ =>
      s.transfer (scene.world.trace (.resumingOnTop target host)) waiting target .onTop

def probe (s : State) (scene : Scene) (below : List Frame) (target : ContextId) (query : Query)
    (purpose : ProbePurpose) : Config :=
  s.transfer (scene.world.trace (.probed target query))
    (.calling (.probe query none purpose) scene.code :: below) target (.message .query)

/-! ## Answers -/

/-- Answers the probe of a context that waits for it, and switches straight back. -/
def answer (s : State) (prober : ContextId) (binding : Affinity) : Config :=
  match s.parked? prober with
  | some (.calling (.probe query _ purpose) code :: below) =>
      let reply :=
        match query with
        | .affinity => Reply.affinity binding
        | .stackKind => Reply.stackKind s.kind
      let waiting := .calling (.probe query (some reply) purpose) code :: below
      { s with contexts := replaceStack prober waiting s.contexts }.transfer s.world s.stack prober
        (.message .handover)
  | _ => s.stuck

end State

/-- The note that answers a question, if the reply fits it. -/
def Question.note? (hosts : HostTable) : Question -> Reply -> Option Note
  | canResume host, .affinity binding => some (.canResume (binding.allows (hosts.resolve host)))
  | canResumeAnywhere, .stackKind kind => some (.canResumeAnywhere kind.canMove)
  | affinity, .affinity binding => some (.affinity binding)
  | stackKind, .stackKind kind => some (.stackKind kind)
  | _, _ => none

/-- The query that a question is settled by. -/
def Question.query : Question -> Query
  | canResume _ | affinity => .affinity
  | canResumeAnywhere | stackKind => .stackKind

namespace State

/-- Goes on after a probe: the handle is back, and the reply decides. -/
def conclude (s : State) (scene : Scene) (below : List Frame) (fiber : ContextId) (reply : Reply) :
    ProbePurpose -> Config
  | .question question slot =>
      match question.note? scene.world.hosts reply with
      | some note =>
          s.go scene.world
            (.calling (.store [(slot, .live fiber)] (some note)) scene.code :: below)
      | none => s.breach .probeMismatched
  | .check switch onTop =>
      match reply with
      | .affinity binding =>
          let host := scene.world.hosts.resolve switch.host
          if binding.allows host then s.depart scene below fiber switch onTop
          else
            let refusal : Refusal := ⟨.live fiber, binding, host⟩
            s.go (scene.world.trace (.refusing host binding))
              (dropFirst (Closure.leftover onTop)
                (.calling (.refuse refusal switch.slot switch.onRefusal) scene.code :: below))
      | .stackKind _ => s.breach .probeMismatched

/-! ## Arrivals -/

/-- Ends the switch that the running code is waiting in, with the handle that it is given. -/
def deliver (s : State) (h : Handle) (onTop : Option Closure) (target : SlotName)
    (code : Activation) (below : List Frame) : Config :=
  let scene := (Scene.mk s.world code).note (.resumed h)
  s.go scene.world
    (dropFirst (Closure.leftover onTop) (.calling (.store [(target, h)] none) scene.code :: below))

/-- Calls the body of a fiber that was parked before it. -/
def callBody (s : State) (record : Record) (caller : Handle) (below : List Frame) : Config :=
  match record.body with
  | some body =>
      s.go (s.world.trace (.dispatching record.lease.name))
        (.code (body.activation caller) :: .base (.busy record.lease) :: below)
  | none => s.breach .dispatchedTwice

/-- Takes in a message, according to what the running context was parked in. -/
def receive (s : State) (source : ContextId) (message : Message) : Config :=
  match s.stack with
  | .calling (.create slot) code :: below =>
      match message with
      | .handover =>
          s.go ((s.world.trace (.created source)).trace .spanLeft)
            (.calling (.store [(slot, .live source)] none) code :: below)
      | _ => s.breach .notParkedAfterStart
  | .calling (.probe _ reply purpose) code :: below =>
      match message, reply with
      | .handover, some reply => s.conclude ⟨s.world, code⟩ below source reply purpose
      | .handover, none => s.breach .probeNotAnswered
      | _, _ => s.breach .probeNotReturned
  | .calling (.resume host onTop target) code :: below =>
      match message with
      | .handover => s.deliver (.live source) onTop target code below
      | .farewell => s.deliver .empty onTop target code below
      | .query => s.answer source (.bound host)
      | .eviction =>
          match s.kind with
          | .native => s.breach .nativeStackUnwound
          | .fiber =>
              s.raise (s.world.trace (.forcedUnwind source)) (.forced source)
                (Closure.leftover onTop) (.code code :: below)
  | .dropping :: below =>
      match message with
      | .farewell => s.go s.world below
      | _ => s.breach .abandonedDidNotTerminate
  | .base .unborn :: _ => s.breach .startedWithoutRecord
  | .base (.idle record) :: below =>
      match message with
      | .handover => s.callBody record (.live source) below
      | .farewell => s.callBody record .empty below
      | .query => s.answer source .unbound
      | .eviction =>
          s.go s.world
            (dropFirst (Closure.leftover record.body)
              (.base (.leaving record.lease (.unwound source)) :: below))
  | .base (.exited _) :: _ => s.breach .terminatedWasResumed
  | _ => s.stuck

/-- Parks a new fiber for the first time, and goes back to its maker. -/
def start (s : State) (maker : ContextId) (record : Option Record) : Config :=
  match s.stack, record with
  | .base .unborn :: below, some record =>
      s.transfer s.world (.base (.idle record) :: below) maker (.message .handover)
  | .base .unborn :: _, none => s.breach .startedWithoutRecord
  | _, _ => s.stuck

/-- Runs the function that a parked context has sent along, on top of what is parked here. -/
def callOnTop (s : State) (source : ContextId) : Config :=
  match s.parked? source with
  | some (.calling (.resume host (some f) target) code :: below) =>
      let waiting := .calling (.resume host none target) code :: below
      .active
        { s with
          stack := .code (f.activation (.live source)) :: .onTop source :: s.stack
          contexts := replaceStack source waiting s.contexts
          control := .run }
  | some (.calling (.resume _ none _) _ :: _) => s.breach .onTopRanTwice
  | _ => s.stuck

/-- Gives the stack of a fiber that has just left it back to where it came from. -/
def release (s : State) (source : ContextId) : Config :=
  match s.parked? source with
  | some (.base (.exited lease) :: _) =>
      let w := s.world.trace (.releasing lease.name)
      let w := { w with registry := w.registry.erase lease.stack }
      let w :=
        match lease.owner with
        | some label =>
            { w with liveStacks := w.liveStacks - 1 }.report
              (.deallocated label (w.kindOf s.running))
        | none => w
      .active
        { s with
          world := w
          contexts := s.contexts.filter (fun entry => entry.1 ≠ source)
          control := .landed source (.message .farewell) }
  | _ => s.stuck

/-- Takes in whatever a switch has brought. -/
def land (s : State) (source : ContextId) : Signal -> Config
  | .message message => s.receive source message
  | .onTop => s.callOnTop source
  | .exit => s.release source
  | .start record => s.start source record

end State

end Fibers
