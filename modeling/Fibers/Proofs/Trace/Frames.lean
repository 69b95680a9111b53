import Fibers.Proofs.Locality.Run
import Fibers.Proofs.Slots

/-!
# What a step makes of frames

A step works on one or two frames at the top of the running context's stack, and leaves those below
as they are.  Here it is told what it puts in their place, what it logs with that, and where control
goes.  Whatever is counted along stacks and along the log is counted from this list.
-/

namespace Fibers

/-! ## What is logged -/

/-- An event in the life of a fiber, or in that of the span in which one is made. -/
def TraceEvent.isLife : TraceEvent -> Bool
  | probed _ _ | refusing _ _ | resuming _ _ | resumingOnTop _ _ => false
  | _ => true

namespace LogEntry

def life? : LogEntry -> Option TraceEvent
  | traced e => if e.isLife then some e else none
  | _ => none

/-- The kind of stack that a guard or an allocator has seen. -/
def seen? : LogEntry -> Option StackKind
  | dropped _ k | allocated _ k | deallocated _ k => some k
  | _ => none

end LogEntry

/-- Entries that tell of no fiber's life, and of no other kind of stack than the code is on. -/
def State.Uneventful (s : State) (entries : List LogEntry) : Prop :=
  forall e, e ∈ entries -> e.life? = none ∧ forall k, e.seen? = some k -> k = s.kind

/-! ## Frames -/

/-- Whether a call is the making of a fiber. -/
def Call.makes : Call -> Bool
  | create _ | failBuild _ => true
  | _ => false

/-- Code, or code that is in the middle of anything but the making of a fiber. -/
def Frame.isOrdinary : Frame -> Bool
  | code _ => true
  | calling call _ => !call.makes
  | _ => false

/-- What a guard does, without a result so far. -/
def Activation.Serves (a : Activation) : Prop := a.role = .cleanup ∧ a.flow.result = .empty

/--
A frame that entries to be dropped are waiting for: a fiber is to be gone, or a guard's code to come
to its end, which has no result then, and none while it waits.
-/
def Frame.Serves : Frame -> Prop
  | code a => a.role = .cleanup ∧ (a.blocks = [] -> a.flow.result = .empty)
  | calling _ a => a.Serves
  | dropping => True
  | _ => False

theorem Activation.Serves.code {a : Activation} (h : a.Serves) : (Frame.code a).Serves :=
  ⟨h.1, fun _ => h.2⟩

theorem Activation.serves_ofCode (label : String) (ops : List Op) :
    (Frame.code (Activation.ofCode .cleanup label ops)).Serves := ⟨rfl, nofun⟩

theorem Activation.Serves.congr {a a' : Activation} (h : a.Serves) (hflow : a'.flow = a.flow)
    (hidentity : a'.identity = a.identity) : a'.Serves :=
  ⟨(congrArg Prod.snd hidentity).trans h.1, hflow ▸ h.2⟩

/-- Where control goes with a step. -/
inductive Onward where
  /-- The frames that are on top now go on. -/
  | run
  /-- A message lands in the frames that are on top now. -/
  | lands (source : ContextId) (message : Message)
  | leaves (target : ContextId) (signal : Signal)
  | launches (fiber : ContextId) (record : Record)

namespace State

def onward (s : State) (w : World) (stack : List Frame) : Onward -> Config
  | .run => s.go w stack
  | .lands source message =>
      .active { s with world := w, stack := stack, control := .landed source (.message message) }
  | .leaves target signal => s.transfer w stack target signal
  | .launches fiber record =>
      (s.grown fiber).transfer w stack fiber (.start (some record))

/-! ## Steps -/

/-- The topmost frames, what a step puts in their place, what it logs, and where control goes. -/
inductive Reworks (s : State) : List Frame -> List Frame -> List LogEntry -> Onward -> Prop where
  /-- Code goes on, or drops something first. -/
  | works {f f' : Frame} {es : List Entry} {entries : List LogEntry} :
      f.isOrdinary = true -> f'.isOrdinary = true -> (f.Serves -> f'.Serves) ->
        s.Uneventful entries -> Reworks s [f] (dropFirst es [f']) entries .run
  | panics {f : Frame} {a : Activation} {es : List Entry} {payload : Payload}
      {entries : List LogEntry} :
      f.isOrdinary = true -> (f.Serves -> a.Serves) -> s.Uneventful entries ->
        Reworks s [f] [.discarding es (some (.panic payload)), .code a] entries .run
  /-- A fiber cannot be made. -/
  | fails {a a' : Activation} {es : List Entry} {cause : BuildError} {name : Option String}
      {entries : List LogEntry} :
      ((Frame.code a).Serves -> a'.Serves) -> s.Uneventful entries ->
        Reworks s [.code a] (dropFirst es [.calling (.failBuild cause) a'])
          (entries ++ [.traced .spanEntered, .traced (.spanMade name)]) .run
  /-- A fiber is made, and control goes into it. -/
  | launches {a a' : Activation} {slot : SlotName} {name : Option String} {fiber : ContextId}
      {record : Record} {entries : List LogEntry} :
      ((Frame.code a).Serves -> a'.Serves) -> s.Uneventful entries ->
        Reworks s [.code a] [.calling (.create slot) a']
          (.traced (.registering record.lease.stack) ::
            (entries ++ [.traced .spanEntered, .traced (.spanMade name)]))
          (.launches fiber record)
  /-- Another context is resumed or probed. -/
  | departs {f f' : Frame} {target : ContextId} {signal : Signal} {entries : List LogEntry} :
      f.isOrdinary = true -> f'.isOrdinary = true -> (f.Serves -> f'.Serves) ->
        signal = .message .handover ∨ signal = .onTop ∨ signal = .message .query ->
        s.Uneventful entries -> Reworks s [f] [f'] entries (.leaves target signal)
  | born {slot : SlotName} {a : Activation} {source : ContextId} :
      s.control = .landed source (.message .handover) ->
        Reworks s [.calling (.create slot) a]
          [.calling (.store [(slot, .live source)] none) a]
          [.traced .spanLeft, .traced (.created source)] .run
  | failed {cause : BuildError} {a : Activation} :
      s.control = .run ->
        Reworks s [.calling (.failBuild cause) a] [.code a]
          [.noted a.label (.buildFailed cause), .traced .spanLeft] .run
  /-- What a guard does is over. -/
  | gives {a : Activation} {es : List Entry} {cause : Option Unwind} :
      s.control = .run -> a.blocks = [] ->
        Reworks s [.code a, .discarding es cause]
          [.discarding (a.flow.result.entries ++ es) cause] [] .run
  | endsProgram {a : Activation} {es : List Entry} :
      s.control = .run -> Reworks s [.code a, .root .program] (dropFirst es [.root .ending]) [] .run
  /-- The body of a fiber has returned a handle. -/
  | finishes {a : Activation} {lease : Lease} {next : ContextId} :
      s.control = .run -> a.blocks = [] -> a.flow.result = .live next ->
        Reworks s [.code a, .base (.busy lease)] [.base (.leaving lease (.returned next))] [] .run
  /-- A function on top is over. -/
  | returns {a : Activation} {source next : ContextId} {message : Message} :
      s.control = .run -> a.blocks = [] -> message ≠ .eviction ->
        Reworks s [.code a, .onTop source] [] [] (.lands next message)
  | unwinds {cause : Unwind} {a a' : Activation} {es : List Entry} {entries : List LogEntry} :
      s.control = .run -> ((Frame.code a).Serves -> a'.Serves) -> s.Uneventful entries ->
        Reworks s [.discarding [] (some cause), .code a] [.discarding es (some cause), .code a']
          entries .run
  /-- An unwind is through with some code. -/
  | passes {cause : Unwind} {a : Activation} :
      s.control = .run -> a.blocks = [] ->
        Reworks s [.discarding [] (some cause), .code a] [.discarding [] (some cause)] [] .run
  /-- An unwind is over; that of a context that is wanted gone is lost with it. -/
  | caught {cause : Unwind} {a a' : Activation} {entries : List LogEntry} :
      s.control = .run -> (forall r, cause = .forced r -> r ∈ s.swallows) ->
        ((Frame.code a).Serves -> a'.Serves) -> s.Uneventful entries ->
        Reworks s [.discarding [] (some cause), .code a] [.code a'] entries .run
  | unwindsCall {cause : Unwind} {call : Call} {a : Activation} {es : List Entry} :
      s.control = .run -> call.makes = false ->
        Reworks s [.discarding [] (some cause), .calling call a]
          [.discarding es (some cause), .code a] [] .run
  | unwindsBuild {cause : Unwind} {failure : BuildError} {a : Activation} :
      s.control = .run ->
        Reworks s [.discarding [] (some cause), .calling (.failBuild failure) a]
          [.discarding [] (some cause), .code a] [.traced .spanLeft] .run
  /-- What is left to drop is dropped as a part of the unwind. -/
  | takesOver {cause : Unwind} {es : List Entry} :
      s.control = .run ->
        Reworks s [.discarding [] (some cause), .discarding es none] [.discarding es (some cause)]
          [] .run
  | closes {requester : ContextId} {lease : Lease} :
      s.control = .run ->
        Reworks s [.discarding [] (some (.forced requester)), .base (.busy lease)]
          [.base (.leaving lease (.unwound requester))] [] .run
  | drains {payload : Payload} {stage stage' : RootStage} :
      s.control = .run ->
        Reworks s [.discarding [] (some (.panic payload)), .root stage] [.root stage'] [] .run
  /-- A forced unwind leaves a function on top, and goes on in what is below. -/
  | redelivers {requester source : ContextId} :
      s.control = .run ->
        Reworks s [.discarding [] (some (.forced requester)), .onTop source] [] []
          (.lands requester .eviction)
  | done : s.control = .run -> Reworks s [.discarding [] none] [] [] .run
  | skips {name : SlotName} {es : List Entry} {cause : Option Unwind} :
      s.control = .run ->
        Reworks s [.discarding (.slot name .empty :: es) cause] [.discarding es cause] [] .run
  | drops {label : String} {es : List Entry} {cause : Option Unwind} :
      s.control = .run ->
        Reworks s [.discarding (.guard label [] :: es) cause] [.discarding es cause]
          [.dropped label s.kind] .run
  | dropsActing {label : String} {op : Op} {ops : List Op} {es : List Entry}
      {cause : Option Unwind} :
      s.control = .run ->
        Reworks s [.discarding (.guard label (op :: ops) :: es) cause]
          [.code (Activation.ofCode .cleanup ("~" ++ label) (op :: ops)), .discarding es cause]
          [.dropped label s.kind] .run
  | abandons {name : SlotName} {fiber : ContextId} {es : List Entry} {cause : Option Unwind} :
      s.control = .run ->
        Reworks s [.discarding (.slot name (.live fiber) :: es) cause]
          [.dropping, .discarding es cause] [.traced (.abandoned fiber)]
          (.leaves fiber (.message .eviction))
  /-- The fiber that was waited for is gone. -/
  | dropped {source : ContextId} :
      s.control = .landed source (.message .farewell) -> Reworks s [.dropping] [] [] .run
  | root {stage stage' : RootStage} {es : List Entry} {entries : List LogEntry} :
      s.control = .run -> s.Uneventful entries ->
        Reworks s [.root stage] (dropFirst es [.root stage']) entries .run
  | exits {lease : Lease} {ending : Ending} :
      s.control = .run ->
        Reworks s [.base (.leaving lease ending)] [.base (.exited lease)]
          [.traced (.exiting lease.name)] (.leaves ending.next .exit)
  | parks {maker : ContextId} {record : Record} :
      s.control = .landed maker (.start (some record)) ->
        Reworks s [.base .unborn] [.base (.idle record)] [] (.leaves maker (.message .handover))
  | dispatches {source : ContextId} {message : Message} {record : Record} {body : Closure}
      {caller : Handle} :
      s.control = .landed source (.message message) -> record.body = some body ->
        Reworks s [.base (.idle record)]
          [.code (body.activation caller), .base (.busy record.lease)]
          [.traced (.dispatching record.lease.name)] .run
  | evictsIdle {requester : ContextId} {record : Record} :
      s.control = .landed requester (.message .eviction) ->
        Reworks s [.base (.idle record)]
          (dropFirst (Closure.leftover record.body)
            [.base (.leaving record.lease (.unwound requester))]) [] .run
  /-- A context that is wanted gone begins to unwind. -/
  | evicts {requester : ContextId} {host : Host} {onTop : Option Closure} {target : SlotName}
      {a : Activation} :
      s.control = .landed requester (.message .eviction) ->
        Reworks s [.calling (.resume host onTop target) a]
          [.discarding (Closure.leftover onTop) (some (.forced requester)), .code a]
          [.traced (.forcedUnwind requester)] .run

/-- A step reworks the topmost frames, or is one of four that do not. -/
inductive Steps (s : State) : Config -> Prop where
  | reworks {old new below : List Frame} {w : World} {entries : List LogEntry} {next : Onward} :
      s.stack = old ++ below -> s.Reworks old new entries next ->
        w.log = entries ++ s.world.log -> Steps s (s.onward w (new ++ below) next)
  | answer {prober : ContextId} {binding : Affinity} :
      s.control = .landed prober (.message .query) -> Steps s (s.answer prober binding)
  | call {source : ContextId} : s.control = .landed source .onTop -> Steps s (s.callOnTop source)
  | release {source : ContextId} : s.control = .landed source .exit -> Steps s (s.release source)
  | halt {outcome : Outcome} {w : World} : Steps s (.halted outcome w)

end State

/-! ## Scenes -/

namespace Scene

variable {s : Scene}

@[simp] theorem log_take (slot : SlotName) : (s.take slot).2.world.log = s.world.log := by
  rw [world_take]

@[simp] theorem log_put (slot : SlotName) (h : Handle) :
    (s.put slot h).2.world.log = s.world.log := by
  rw [world_put]

@[simp] theorem log_look (slot : SlotName) : (s.look slot).2.world.log = s.world.log := by
  simp [look]

@[simp] theorem log_takeAll (slots : List SlotName) :
    (s.takeAll slots).2.world.log = s.world.log := by
  rw [world_takeAll]

@[simp] theorem log_capture (label : String) (argument : SlotName) (captures : List String)
    (moves : List SlotName) (ops : List Op) :
    (s.capture label argument captures moves ops).2.world.log = s.world.log := by
  simp [capture]

@[simp] theorem world_prepend (ops : List Op) : (s.prepend ops).world = s.world := by
  unfold prepend
  split <;> rfl

@[simp] theorem log_defaultResult : s.defaultResult.2.world.log = s.world.log := by
  unfold defaultResult
  split <;> simp

@[simp] theorem flow_look (slot : SlotName) : (s.look slot).2.code.flow = s.code.flow := by
  simp [look]

@[simp] theorem flow_takeAll (slots : List SlotName) :
    (s.takeAll slots).2.code.flow = s.code.flow := by
  induction slots generalizing s with
  | nil => rfl
  | cons slot rest ih => simp [takeAll, ih]

@[simp] theorem flow_capture (label : String) (argument : SlotName) (captures : List String)
    (moves : List SlotName) (ops : List Op) :
    (s.capture label argument captures moves ops).2.code.flow = s.code.flow := by
  simp [capture]

@[simp] theorem flow_prepend (ops : List Op) : (s.prepend ops).code.flow = s.code.flow := by
  unfold prepend
  split <;> rfl

/-- Taking from a slot closes no block. -/
theorem blocks_take (hblocks : s.code.blocks ≠ []) (slot : SlotName) :
    (s.take slot).2.code.blocks ≠ [] := by
  have hkinds := congrArg Prod.snd (outline_take (s := s) slot)
  intro hnil
  simp only [Activation.outline, hnil, List.map_nil] at hkinds
  exact hblocks (List.map_eq_nil_iff.mp hkinds.symm)

end Scene

namespace State

variable {s : State} {scene : Scene} {below : List Frame} {frame : Frame} {es : List Entry}
  {entries : List LogEntry}

/-! ## Uneventful entries -/

theorem uneventful_nil : s.Uneventful [] := fun _ he => nomatch he

theorem Uneventful.cons {e : LogEntry} (hlife : e.life? = none)
    (hseen : forall k, e.seen? = some k -> k = s.kind) (h : s.Uneventful entries) :
    s.Uneventful (e :: entries) := by
  intro e' he'
  rcases List.mem_cons.mp he' with rfl | hmem
  · exact ⟨hlife, hseen⟩
  · exact h e' hmem

theorem Uneventful.append {earlier : List LogEntry} (h : s.Uneventful entries)
    (h' : s.Uneventful earlier) : s.Uneventful (entries ++ earlier) := by
  intro e he
  rcases List.mem_append.mp he with hmem | hmem
  · exact h e hmem
  · exact h' e hmem

theorem Uneventful.note (label : String) (n : Note) (h : s.Uneventful entries) :
    s.Uneventful (.noted label n :: entries) := h.cons rfl nofun

/-- What is logged of a fiber that is being made comes after the span for that was entered. -/
theorem mem_making {e : LogEntry} {name : Option String}
    (he : e ∈ entries ++ [.traced .spanEntered, .traced (.spanMade name)]) :
    e ∈ entries ∨ e = .traced .spanEntered ∨ e = .traced (.spanMade name) := by
  simpa using he

/-! ## Ordinary code -/

/-- Ordinary code has come so far with a step, and nothing is below it that was not. -/
structure Working (s : State) (scene : Scene) (below : List Frame) : Prop where
  stack : exists f : Frame, f.isOrdinary = true ∧ s.stack = f :: below ∧
    (f.Serves -> scene.code.Serves)
  log : exists entries, s.Uneventful entries ∧ scene.world.log = entries ++ s.world.log

namespace Working

variable (h : s.Working scene below)

include h

/-- Ordinary code goes on in a frame of its own, or drops something first. -/
theorem goes (hordinary : frame.isOrdinary = true)
    (hserves : scene.code.Serves -> frame.Serves) (es : List Entry) :
    s.Steps (s.go scene.world (dropFirst es (frame :: below))) := by
  rcases h.stack with ⟨f, hf, hstack, hcode⟩
  rcases h.log with ⟨entries, hquiet, hlog⟩
  have hworks : s.Steps (s.go scene.world (dropFirst es [frame] ++ below)) :=
    .reworks hstack (.works hf hordinary (fun hold => hserves (hcode hold)) hquiet) hlog
  rwa [<- dropFirst_append] at hworks

theorem proceed : s.Steps (s.proceed scene below) :=
  h.goes rfl Activation.Serves.code []

/-- A guard's code may have a result, but not at its end. -/
theorem flow {f : Flow} (hf : scene.code.blocks ≠ [] ∨ f.result = .empty) :
    s.Steps (s.proceed (scene.flow f) below) := by
  have hserves : scene.code.Serves -> (Frame.code { scene.code with flow := f }).Serves :=
    fun hcode => ⟨hcode.1, fun hnil => hf.resolve_left fun hleft => hleft hnil⟩
  exact h.goes rfl hserves []

theorem store (pending : List (SlotName × Handle)) (n : Option Note) :
    s.Steps (s.store scene below pending n) := h.goes rfl id []

theorem drop (es : List Entry) :
    s.Steps (s.go scene.world (dropFirst es (.code scene.code :: below))) :=
  h.goes rfl Activation.Serves.code es

theorem panic (payload : Payload) (captured : List Entry) :
    s.Steps (s.panic scene below payload captured) := by
  rcases h.stack with ⟨f, hf, hstack, hcode⟩
  rcases h.log with ⟨entries, hquiet, hlog⟩
  exact .reworks hstack (.panics hf hcode hquiet) hlog

/-- The world may have changed in something else than the log. -/
theorem congr {scene' : Scene} (hlog : scene'.world.log = scene.world.log)
    (hflow : scene'.code.flow = scene.code.flow)
    (hidentity : scene'.code.identity = scene.code.identity) : s.Working scene' below := by
  constructor
  · rcases h.stack with ⟨f, hf, hstack, hcode⟩
    exact ⟨f, hf, hstack, fun hold => (hcode hold).congr hflow hidentity⟩
  · rw [hlog]
    exact h.log

theorem note (n : Note) : s.Working (scene.note n) below := by
  rcases h.log with ⟨entries, hquiet, hlog⟩
  refine ⟨h.stack, .noted scene.code.label n :: entries, hquiet.note _ _, ?_⟩
  rw [List.cons_append, <- hlog]
  rfl

theorem trace {e : TraceEvent} (hlife : e.isLife = false) :
    s.Working { scene with world := scene.world.trace e } below := by
  rcases h.log with ⟨entries, hquiet, hlog⟩
  refine ⟨h.stack, .traced e :: entries, hquiet.cons ?_ nofun, ?_⟩
  · simp [LogEntry.life?, hlife]
  · rw [List.cons_append, <- hlog]
    rfl

theorem take (slot : SlotName) : s.Working (scene.take slot).2 below :=
  h.congr (Scene.log_take slot) (Scene.flow_take slot) (Scene.identity_take slot)

theorem look (slot : SlotName) : s.Working (scene.look slot).2 below :=
  h.congr (Scene.log_look slot) (Scene.flow_look slot) (Scene.identity_look slot)

theorem takeAll (slots : List SlotName) : s.Working (scene.takeAll slots).2 below :=
  h.congr (Scene.log_takeAll slots) (Scene.flow_takeAll slots) (Scene.identity_takeAll slots)

theorem capture (label : String) (argument : SlotName) (captures : List String)
    (moves : List SlotName) (ops : List Op) :
    s.Working (scene.capture label argument captures moves ops).2 below :=
  h.congr (Scene.log_capture ..) (Scene.flow_capture ..) (Scene.identity_capture ..)

theorem prepend (ops : List Op) : s.Working (scene.prepend ops) below :=
  h.congr (congrArg World.log (Scene.world_prepend ops)) (Scene.flow_prepend ops)
    (Scene.identity_prepend ops)

theorem park {call : Call} (hcall : call.makes = false) {w : World} {target : ContextId}
    {signal : Signal} (hw : s.Working { scene with world := w } below)
    (hsignal : signal = .message .handover ∨ signal = .onTop ∨ signal = .message .query) :
    s.Steps (s.transfer w (.calling call scene.code :: below) target signal) := by
  rcases h.stack with ⟨f, hf, hstack, hcode⟩
  rcases hw.log with ⟨entries, hquiet, hlog⟩
  have hordinary : (Frame.calling call scene.code).isOrdinary = true := by
    simp [Frame.isOrdinary, hcall]
  have hdeparts : s.Reworks [f] [.calling call scene.code] entries (.leaves target signal) :=
    .departs hf hordinary hcode hsignal hquiet
  exact .reworks hstack hdeparts hlog

theorem depart (target : ContextId) (switch : SwitchSpec) (onTop : Option Closure) :
    s.Steps (s.depart scene below target switch onTop) := by
  cases onTop with
  | none => exact h.park rfl (h.trace rfl) (Or.inl rfl)
  | some f => exact h.park rfl (h.trace rfl) (Or.inr (Or.inl rfl))

theorem probe (target : ContextId) (query : Query) (purpose : ProbePurpose) :
    s.Steps (s.probe scene below target query purpose) :=
  h.park rfl (h.trace rfl) (Or.inr (Or.inr rfl))

theorem resume (switch : SwitchSpec) (onTop : Option Closure) :
    s.Steps (s.resume scene below switch onTop) := by
  have htaken := h.take switch.slot
  unfold State.resume
  generalize scene.take switch.slot = taken at htaken
  rcases taken with ⟨held, rest⟩
  cases held with
  | empty =>
      cases switch.checked with
      | true => exact htaken.panic _ _
      | false => exact htaken.panic _ _
  | live target =>
      cases switch.checked with
      | true => exact htaken.probe _ _ _
      | false => exact htaken.depart _ _ _

theorem ask (question : Question) (slot : SlotName) : s.Steps (s.ask scene below question slot) := by
  have htaken := h.take slot
  unfold State.ask
  generalize scene.take slot = taken at htaken
  rcases taken with ⟨held, rest⟩
  cases held with
  | empty => exact htaken.panic _ _
  | live target => exact htaken.probe _ _ _

end Working

/-! ## Operations -/

/-- Asking for a stack is logged after the making of a fiber has begun. -/
theorem log_askForStack (s : State) (w : World) (name owner : Option String) :
    exists entries, s.Uneventful entries ∧
      (w.askForStack name owner s.kind).log =
        entries ++ [.traced .spanEntered, .traced (.spanMade name)] ++ w.log := by
  cases owner with
  | none => exact ⟨[], uneventful_nil, rfl⟩
  | some label =>
      refine ⟨[.allocated label s.kind], uneventful_nil.cons rfl ?_, rfl⟩
      rintro k hk
      cases hk
      rfl

theorem log_returnStack (s : State) (w : World) (owner : Option String) :
    exists entries, s.Uneventful entries ∧
      (w.returnStack owner s.kind).log = entries ++ w.log := by
  cases owner with
  | none => exact ⟨[], uneventful_nil, rfl⟩
  | some label =>
      refine ⟨[.deallocated label s.kind], uneventful_nil.cons rfl ?_, rfl⟩
      rintro k hk
      cases hk
      rfl

section Code

variable {a : Activation} (hstack : s.stack = .code a :: below)

include hstack

theorem steps_failBuild (hcode : (Frame.code a).Serves -> scene.code.Serves) (body : Closure)
    (cause : BuildError) {name : Option String} (hquiet : s.Uneventful entries)
    (hlog : scene.world.log =
      entries ++ [.traced .spanEntered, .traced (.spanMade name)] ++ s.world.log) :
    s.Steps (s.failBuild scene below body cause) := by
  have hfails : s.Steps (s.go scene.world
      (dropFirst body.captured [.calling (.failBuild cause) scene.code] ++ below)) :=
    .reworks hstack (.fails hcode hquiet) hlog
  rwa [<- dropFirst_append] at hfails

theorem steps_create (hlog : scene.world.log = s.world.log)
    (hcode : (Frame.code a).Serves -> scene.code.Serves) (spec : FiberSpec) (body : Closure) :
    s.Steps (s.create scene below spec body) := by
  rcases s.log_askForStack scene.world spec.name spec.allocator.label? with ⟨asked, hasked, hask⟩
  rw [hlog] at hask
  unfold State.create
  dsimp only
  split
  · apply steps_failBuild hstack _ body _ hasked hask
    exact hcode
  · rename_i stack memory hsupply
    unfold State.place
    split
    · rename_i placement hplacement
      have hlaunches : forall record : Record,
          s.Reworks [.code a] [.calling (.create spec.slot) scene.code]
            (.traced (.registering record.lease.stack) ::
              (asked ++ [.traced .spanEntered, .traced (.spanMade spec.name)]))
            (.launches (scene.world.askForStack spec.name spec.allocator.label? s.kind).memory.next
              record) := fun _ => .launches hcode hasked
      exact .reworks hstack (hlaunches ⟨⟨spec.name, stack, spec.allocator.label?⟩, some body⟩)
        (congrArg _ hask)
    · rcases s.log_returnStack ((scene.world.askForStack spec.name spec.allocator.label?
        s.kind).lendStack memory spec.allocator.label?) spec.allocator.label? with
        ⟨returned, hreturned, hreturn⟩
      have hlog' : (((scene.world.askForStack spec.name spec.allocator.label? s.kind).lendStack
          memory spec.allocator.label?).returnStack spec.allocator.label? s.kind).log =
          returned ++ asked ++ [.traced .spanEntered, .traced (.spanMade spec.name)] ++
            s.world.log := by
        rw [hreturn, List.append_assoc, List.append_assoc, <- List.append_assoc asked, <- hask]
        rfl
      apply steps_failBuild hstack _ body _ (hreturned.append hasked) hlog'
      exact hcode

theorem steps_execute (hlog : scene.world.log = s.world.log) (hflow : scene.code.flow = .onward)
    (hidentity : scene.code.identity = a.identity) (hblocks : scene.code.blocks ≠ []) (op : Op) :
    s.Steps (s.execute scene below op) := by
  have hcode : (Frame.code a).Serves -> scene.code.Serves :=
    fun hserves => ⟨(congrArg Prod.snd hidentity).trans hserves.1, by rw [hflow]; rfl⟩
  have hworking : s.Working scene below :=
    ⟨⟨.code a, rfl, hstack, hcode⟩, [], uneventful_nil, hlog⟩
  cases op with
  | create spec captures moves body =>
      have hmade := @Scene.log_capture scene spec.label (.own "caller") captures moves body
      have hcaptured : (Frame.code a).Serves ->
          (scene.capture spec.label (.own "caller") captures moves body).2.code.Serves :=
        fun hserves => (hcode hserves).congr (Scene.flow_capture ..) (Scene.identity_capture ..)
      exact steps_create hstack (hmade.trans hlog) hcaptured spec _
  | resume switch => exact hworking.resume switch none
  | resumeWith switch captures moves onTop =>
      apply Working.resume
      exact hworking.capture (scene.code.label ++ "^") (.own "source") captures moves onTop
  | ask question slot => exact hworking.ask question slot
  | drop slot => exact (hworking.take slot).drop _
  | move slot target => exact (hworking.take slot).store _ _
  | isEmpty slot | display slot | debug slot => exact ((hworking.look slot).note _).proceed
  | compare a b =>
      simp only [State.execute]
      split
      · exact (hworking.take a).store _ _
      · exact ((hworking.take a).take b).store _ _
  | collect slots => exact (hworking.takeAll slots).store _ _
  | giveBack slot =>
      have hleft := Scene.blocks_take hblocks slot
      exact (hworking.take slot).flow (Or.inl hleft)
  | leaveLoop => exact hworking.flow (Or.inr rfl)
  | ifEmpty slot yes no => exact ((hworking.look slot).prepend _).proceed
  | ifCell cell atLeast yes no => exact (hworking.prepend _).proceed
  | panic payload => exact hworking.panic payload []
  | say message | whereAmI | printCell cell | compareHosts a b | checkAffinity binding host
  | currentHost | defaultAffinity | describeStacks settings => exact (hworking.note _).proceed
  | guard label onDrop | scope ops | rounds count ops | whileLive slot limit ops
  | attempt swallow ops | setCell cell source | addCell cell source =>
      exact Working.proceed (hworking.congr rfl rfl rfl)

/-! ## Code that comes to an end -/

variable (hcontrol : s.control = .run)

include hcontrol

theorem steps_give (hblocks : a.blocks = []) : s.Steps (s.give a.flow.result below) := by
  unfold State.give
  split
  · rename_i source below
    split
    · rename_i next hresult
      have hreturns : s.Reworks [.code a, .onTop source] [] [] (.lands next .handover) :=
        .returns hcontrol hblocks nofun
      exact .reworks hstack hreturns rfl
    · have hreturns : s.Reworks [.code a, .onTop source] [] [] (.lands source .farewell) :=
        .returns hcontrol hblocks nofun
      exact .reworks hstack hreturns rfl
  · rename_i lease below
    split
    · rename_i next hresult
      have hfinishes : s.Reworks [.code a, .base (.busy lease)]
          [.base (.leaving lease (.returned next))] [] .run := .finishes hcontrol hblocks hresult
      exact .reworks hstack hfinishes rfl
    · exact .halt
  · rename_i es cause below
    have hgives : s.Reworks [.code a, .discarding es cause]
        [.discarding (a.flow.result.entries ++ es) cause] [] .run := .gives hcontrol hblocks
    exact .reworks hstack hgives rfl
  · rename_i below
    have hends : s.Steps (s.go s.world (dropFirst a.flow.result.entries [.root .ending] ++ below)) := by
      have hreworks : s.Reworks [.code a, .root .program]
          (dropFirst a.flow.result.entries [.root .ending]) [] .run := .endsProgram hcontrol
      exact .reworks hstack hreworks rfl
    rwa [<- dropFirst_append] at hends
  · exact .halt

omit hcontrol in
/-- A block is over; a guard's code that has a result to drop has other blocks, or none left over. -/
theorem steps_endBlock (b : Block) (outer : List Block) (hunwanted : a.unwanted outer = []) :
    s.Steps (s.endBlock a b outer below) := by
  have haround : forall a' : Activation, ((Frame.code a).Serves -> (Frame.code a').Serves) ->
      s.Steps (s.go s.world (.code a' :: below)) := by
    intro a' hserves
    have hreworks : s.Reworks [.code a] (dropFirst [] [.code a']) [] .run :=
      .works rfl rfl hserves uneventful_nil
    exact .reworks hstack hreworks rfl
  have hleft : (Frame.code a).Serves -> (Frame.code { a with blocks := outer }).Serves := by
    rintro ⟨hrole, -⟩
    refine ⟨hrole, fun hnil => ?_⟩
    have hnone := hunwanted
    simp only at hnil
    subst hnil
    simp only [Activation.unwanted, hrole] at hnone
    cases hresult : a.flow.result with
    | empty => rfl
    | live c => rw [hresult] at hnone; cases hnone
  unfold State.endBlock
  split
  · rename_i hflow
    split
    · exact haround _ fun hserves => ⟨hserves.1, fun _ => by simp only [hflow]; rfl⟩
    · rename_i slot left code hkind
      have hworking : s.Working ⟨s.world, { a with blocks := outer }⟩ below :=
        ⟨⟨.code a, rfl, hstack, fun hserves => ⟨hserves.1, by simp only [hflow]; rfl⟩⟩, [],
          uneventful_nil, rfl⟩
      have hlooked := hworking.look slot
      dsimp only
      split
      · exact hlooked.proceed
      · exact Working.proceed (hlooked.congr rfl rfl rfl)
    · exact haround _ hleft
  · split
    · exact haround _ fun hserves => ⟨hserves.1, fun _ => rfl⟩
    · exact haround _ hleft
  · exact haround _ hleft

theorem steps_runCode : s.Steps (s.runCode a below) := by
  have hpush : forall (e : Entry) (es : List Entry) (a' : Activation),
      ((Frame.code a).Serves -> (Frame.code a').Serves) ->
        s.Steps (s.go s.world (.discarding (e :: es) none :: .code a' :: below)) := by
    intro e es a' hserves
    have hreworks : s.Reworks [.code a] (dropFirst (e :: es) [.code a']) [] .run :=
      .works rfl rfl hserves uneventful_nil
    exact .reworks hstack hreworks rfl
  unfold State.runCode
  split
  · rename_i hblocks
    exact steps_give hstack hcontrol hblocks
  · rename_i b outer hblocks
    have hresult : s.Steps (s.proceed ((Scene.mk s.world a).defaultResult.2.flow
        (.returning (Scene.mk s.world a).defaultResult.1)) below) := by
      have hlog := @Scene.log_defaultResult ⟨s.world, a⟩
      have hrole := @Scene.identity_defaultResult ⟨s.world, a⟩
      have hserves : (Frame.code a).Serves -> (Frame.code ((Scene.mk s.world a).defaultResult.2.flow
          (.returning (Scene.mk s.world a).defaultResult.1)).code).Serves := by
        rintro ⟨hcode, -⟩
        refine ⟨(congrArg Prod.snd hrole).trans hcode, fun _ => ?_⟩
        simp only [Scene.defaultResult, hcode]
        rfl
      have hreworks : s.Reworks [.code a]
          (dropFirst [] [.code ((Scene.mk s.world a).defaultResult.2.flow
            (.returning (Scene.mk s.world a).defaultResult.1)).code]) [] .run :=
        .works rfl rfl hserves uneventful_nil
      exact .reworks hstack hreworks hlog
    split
    · rename_i op rest hflow hcode
      exact steps_execute hstack rfl hflow rfl (List.cons_ne_nil _ _) op
    · exact hresult
    · exact hresult
    · split
      · exact hpush _ _ _ fun hserves => ⟨hserves.1, fun _ => rfl⟩
      · rename_i hunwanted hentries
        exact steps_endBlock hstack b _ hunwanted
      · exact hpush _ _ _ fun hserves => ⟨hserves.1, fun hnil => absurd hnil (List.cons_ne_nil _ _)⟩

end Code

/-! ## Calls that go on by themselves -/

section Calls

variable {a : Activation} {call : Call} (hstack : s.stack = .calling call a :: below)

include hstack

theorem working_calling (hcall : call.makes = false) : s.Working ⟨s.world, a⟩ below :=
  ⟨⟨.calling call a, by simp [Frame.isOrdinary, hcall], hstack, id⟩, [], uneventful_nil, rfl⟩

theorem steps_runCall (hcontrol : s.control = .run) : s.Steps (s.runCall call a below) := by
  unfold State.runCall
  split
  · rename_i note
    have hworking := working_calling hstack rfl
    cases note with
    | none => exact hworking.proceed
    | some n => exact (hworking.note n).proceed
  · rename_i slot h pending note
    have hput := (working_calling hstack rfl).congr (Scene.log_put slot h) (Scene.flow_put slot h)
      (Scene.identity_put slot h)
    generalize (Scene.mk s.world a).put slot h = taken at hput
    exact hput.goes rfl id _
  · rename_i cause
    have hfailed : s.Reworks [.calling (.failBuild cause) a] [.code a]
        [.noted a.label (.buildFailed cause), .traced .spanLeft] .run := .failed hcontrol
    exact .reworks hstack hfailed rfl
  · rename_i refusal slot onRefusal
    have hnoted := (working_calling hstack rfl).note (.refused refusal)
    dsimp only
    split
    · exact hnoted.store _ _
    · exact hnoted.drop _
  · exact .halt
  · exact .halt
  · exact .halt

end Calls

/-! ## Unwinding -/

section Unwinding

variable {cause : Unwind} (hcontrol : s.control = .run)

include hcontrol

theorem steps_unwindCode {a : Activation}
    (hstack : s.stack = .discarding [] (some cause) :: .code a :: below) :
    s.Steps (s.unwindCode cause a below) := by
  have hunwinds : forall (w : World) (es : List Entry) (a' : Activation) (entries : List LogEntry),
      ((Frame.code a).Serves -> a'.Serves) -> s.Uneventful entries ->
        w.log = entries ++ s.world.log -> s.Steps (s.raise w cause es (.code a' :: below)) := by
    intro w es a' entries hserves hquiet hlog
    have hreworks : s.Reworks [.discarding [] (some cause), .code a]
        [.discarding es (some cause), .code a'] entries .run := .unwinds hcontrol hserves hquiet
    exact .reworks hstack hreworks hlog
  have hcaught : forall (n : Note) (a' : Activation), ((Frame.code a).Serves -> a'.Serves) ->
      (forall r, cause = .forced r -> r ∈ s.swallows) ->
        s.Steps (s.go (s.world.note a.label n) (.code a' :: below)) := by
    intro n a' hserves hlost
    have hreworks : s.Reworks [.discarding [] (some cause), .code a] [.code a']
        [.noted a.label n] .run := .caught hcontrol hlost hserves (uneventful_nil.note _ _)
    exact .reworks hstack hreworks rfl
  have hserves : forall blocks, (Frame.code a).Serves ->
      Activation.Serves { a with flow := .onward, blocks := blocks } :=
    fun _ hserves => ⟨hserves.1, rfl⟩
  unfold unwindCode
  split
  · exact hunwinds s.world _ _ [] (hserves _) uneventful_nil rfl
  · rename_i hblocks
    have hpasses : s.Reworks [.discarding [] (some cause), .code a] [.discarding [] (some cause)]
        [] .run := .passes hcontrol hblocks
    exact .reworks hstack hpasses rfl
  · rename_i b outer hresult hblocks
    split
    · exact hunwinds s.world _ _ [] (hserves _) uneventful_nil rfl
    · rename_i hentries
      dsimp only
      split
      · exact hcaught _ _ (hserves _) nofun
      · rename_i requester hkind
        refine hcaught _ _ (hserves _) ?_
        intro r hr
        cases hr
        have hempty : a.flow.result = .empty := by
          cases hold : a.flow.result with
          | empty => rfl
          | live c => rw [hold] at hresult; cases hresult
        rcases b with ⟨kind, code, entries⟩
        cases hkind
        cases hentries
        simp [State.swallows, hcontrol, hstack, hempty, hblocks]
      · exact hunwinds (s.world.note _ _) _ _ _ (hserves _) (uneventful_nil.note _ _) rfl
      · exact hunwinds s.world _ _ [] (hserves _) uneventful_nil rfl

theorem steps_unwindInto (hstack : s.stack = .discarding [] (some cause) :: below) :
    s.Steps (s.unwindInto cause below) := by
  have hcall : forall (call : Call) (a : Activation) (rest : List Frame) (es : List Entry),
      below = .calling call a :: rest -> call.makes = false ->
        s.Steps (s.raise s.world cause es (.code a :: rest)) := by
    intro call a rest es hbelow hmakes
    subst hbelow
    have hreworks : s.Reworks [.discarding [] (some cause), .calling call a]
        [.discarding es (some cause), .code a] [] .run := .unwindsCall hcontrol hmakes
    exact .reworks hstack hreworks rfl
  unfold unwindInto
  split
  · exact steps_unwindCode hcontrol hstack
  · rename_i failure a below
    have hreworks : s.Reworks [.discarding [] (some cause), .calling (.failBuild failure) a]
        [.discarding [] (some cause), .code a] [.traced .spanLeft] .run := .unwindsBuild hcontrol
    exact .reworks hstack hreworks rfl
  · exact hcall _ _ _ _ rfl rfl
  · exact hcall _ _ _ _ rfl rfl
  · rename_i es below
    have hreworks : s.Reworks [.discarding [] (some cause), .discarding es none]
        [.discarding es (some cause)] [] .run := .takesOver hcontrol
    exact .reworks hstack hreworks rfl
  · exact .halt
  · rename_i source below
    split
    · exact .halt
    · rename_i requester
      have hreworks : s.Reworks [.discarding [] (some (.forced requester)), .onTop source] [] []
          (.lands requester .eviction) := .redelivers hcontrol
      exact .reworks hstack hreworks rfl
  · rename_i lease below
    split
    · exact .halt
    · rename_i requester
      have hreworks : s.Reworks [.discarding [] (some (.forced requester)), .base (.busy lease)]
          [.base (.leaving lease (.unwound requester))] [] .run := .closes hcontrol
      exact .reworks hstack hreworks rfl
  · exact .halt
  · rename_i stage below
    split
    · rename_i payload
      have hreworks : s.Reworks [.discarding [] (some (.panic payload)), .root stage]
          [.root (.draining drainRounds [] true (some payload))] [] .run := .drains hcontrol
      exact .reworks hstack hreworks rfl
    · exact .halt
  · exact .halt

end Unwinding

/-! ## Dropping, and the lowest frames -/

section Run

variable (hcontrol : s.control = .run)

include hcontrol

theorem steps_runDiscarding {cause : Option Unwind}
    (hstack : s.stack = .discarding es cause :: below) :
    s.Steps (s.runDiscarding es cause below) := by
  unfold runDiscarding
  split
  · split
    · have hreworks : s.Reworks [.discarding [] none] [] [] .run := .done hcontrol
      exact .reworks hstack hreworks rfl
    · exact steps_unwindInto hcontrol hstack
  · rename_i name rest
    have hreworks : s.Reworks [.discarding (.slot name .empty :: rest) cause]
        [.discarding rest cause] [] .run := .skips hcontrol
    exact .reworks hstack hreworks rfl
  · rename_i name fiber rest
    have hreworks : s.Reworks [.discarding (.slot name (.live fiber) :: rest) cause]
        [.dropping, .discarding rest cause] [.traced (.abandoned fiber)]
        (.leaves fiber (.message .eviction)) := .abandons hcontrol
    exact .reworks hstack hreworks rfl
  · rename_i label onDrop rest
    dsimp only
    split
    · have hreworks : s.Reworks [.discarding (.guard label [] :: rest) cause]
          [.discarding rest cause] [.dropped label s.kind] .run := .drops hcontrol
      exact .reworks hstack hreworks rfl
    · rename_i op ops
      have hreworks : s.Reworks [.discarding (.guard label (op :: ops) :: rest) cause]
          [.code (Activation.ofCode .cleanup ("~" ++ label) (op :: ops)), .discarding rest cause]
          [.dropped label s.kind] .run := .dropsActing hcontrol
      exact .reworks hstack hreworks rfl

theorem steps_runRoot {stage : RootStage} (hstack : s.stack = .root stage :: below) :
    s.Steps (s.runRoot stage below) := by
  have hroot : forall (w : World) (es : List Entry) (stage' : RootStage) (entries : List LogEntry),
      s.Uneventful entries -> w.log = entries ++ s.world.log ->
        s.Steps (s.go w (dropFirst es (.root stage' :: below))) := by
    intro w es stage' entries hquiet hlog
    have hreworks : s.Steps (s.go w (dropFirst es [.root stage'] ++ below)) :=
      .reworks hstack (.root hcontrol hquiet) hlog
    rwa [<- dropFirst_append] at hreworks
  have hended : s.Uneventful [.ended] := uneventful_nil.cons rfl nofun
  unfold runRoot
  split
  · exact .halt
  · exact hroot (s.world.report .ended) [] _ _ hended rfl
  · rename_i roundsLeft name names found panic
    have hlog : (s.world.take name).2.log = s.world.log :=
      Scene.log_take (s := ⟨s.world, Activation.ofCode .program "" []⟩) (.shared name)
    split
    · rename_i fiber w htake
      rw [htake] at hlog
      exact hroot w (Handle.live fiber).entries _ [] uneventful_nil hlog
    · rename_i w htake
      rw [htake] at hlog
      exact hroot w [] _ [] uneventful_nil hlog
  · exact hroot s.world [] _ [] uneventful_nil rfl
  · exact .halt

theorem steps_runBase {stage : FiberStage} (hstack : s.stack = .base stage :: below) :
    s.Steps (s.runBase stage below) := by
  unfold runBase
  split
  · rename_i lease ending
    have hreworks : s.Reworks [.base (.leaving lease ending)] [.base (.exited lease)]
        [.traced (.exiting lease.name)] (.leaves ending.next .exit) := .exits hcontrol
    exact .reworks hstack hreworks rfl
  · exact .halt

theorem steps_run : s.Steps s.run := by
  unfold run
  split
  · rename_i hstack
    exact steps_runCode hstack hcontrol
  · rename_i hstack
    exact steps_runCall hstack hcontrol
  · rename_i hstack
    exact steps_runDiscarding hcontrol hstack
  · rename_i hstack
    exact steps_runBase hcontrol hstack
  · rename_i hstack
    exact steps_runRoot hcontrol hstack
  · exact .halt
  · exact .halt
  · exact .halt

end Run

/-! ## Landing -/

section Land

variable {source : ContextId}

theorem Working.conclude (h : s.Working scene below) (reply : Reply) (purpose : ProbePurpose) :
    s.Steps (s.conclude scene below source reply purpose) := by
  unfold State.conclude
  split
  · split
    · exact h.goes rfl id []
    · exact .halt
  · split
    · dsimp only
      split
      · exact h.depart _ _ _
      · exact (h.trace rfl).goes rfl id _
    · exact .halt

theorem steps_callBody {message : Message} {record : Record}
    (hcontrol : s.control = .landed source (.message message))
    (hstack : s.stack = .base (.idle record) :: below) (caller : Handle) :
    s.Steps (s.callBody record caller below) := by
  unfold callBody
  split
  · rename_i body hbody
    have hreworks : s.Reworks [.base (.idle record)]
        [.code (body.activation caller), .base (.busy record.lease)]
        [.traced (.dispatching record.lease.name)] .run := .dispatches hcontrol hbody
    exact .reworks hstack hreworks rfl
  · exact .halt

theorem steps_receive {message : Message}
    (hcontrol : s.control = .landed source (.message message)) :
    s.Steps (s.receive source message) := by
  unfold receive
  split
  · rename_i slot a below hstack
    split
    · have hreworks : s.Reworks [.calling (.create slot) a]
          [.calling (.store [(slot, .live source)] none) a]
          [.traced .spanLeft, .traced (.created source)] .run := .born hcontrol
      exact .reworks hstack hreworks rfl
    · exact .halt
  · rename_i hstack
    split
    · exact (working_calling hstack rfl).conclude _ _
    · exact .halt
    · exact .halt
  · rename_i host onTop target a below hstack
    have hnoted := fun n => (working_calling hstack rfl).note n
    split
    · exact (hnoted _).goes rfl id _
    · exact (hnoted _).goes rfl id _
    · exact .answer hcontrol
    · split
      · exact .halt
      · have hreworks : s.Reworks [.calling (.resume host onTop target) a]
            [.discarding (Closure.leftover onTop) (some (.forced source)), .code a]
            [.traced (.forcedUnwind source)] .run := .evicts hcontrol
        exact .reworks hstack hreworks rfl
  · rename_i hstack
    split
    · have hreworks : s.Reworks [.dropping] [] [] .run := .dropped hcontrol
      exact .reworks hstack hreworks rfl
    · exact .halt
  · exact .halt
  · rename_i record below hstack
    split
    · exact steps_callBody hcontrol hstack _
    · exact steps_callBody hcontrol hstack _
    · exact .answer hcontrol
    · have hevicts : s.Steps (s.go s.world (dropFirst (Closure.leftover record.body)
          [.base (.leaving record.lease (.unwound source))] ++ below)) :=
        .reworks hstack (.evictsIdle hcontrol) rfl
      rwa [<- dropFirst_append] at hevicts
  · exact .halt
  · exact .halt

theorem steps_land {signal : Signal} (hcontrol : s.control = .landed source signal) :
    s.Steps (s.land source signal) := by
  cases signal with
  | message message => exact steps_receive hcontrol
  | onTop => exact .call hcontrol
  | exit => exact .release hcontrol
  | start record =>
      simp only [land, State.start]
      split
      · rename_i below record hstack
        have hreworks : s.Reworks [.base .unborn] [.base (.idle record)] []
            (.leaves source (.message .handover)) := .parks hcontrol
        exact .reworks hstack hreworks rfl
      · exact .halt
      · exact .halt

end Land

/-- What any step makes of the topmost frames. -/
theorem steps_step (s : State) : s.Steps s.step := by
  unfold step
  split
  · rename_i hcontrol
    exact steps_run hcontrol
  · rename_i source signal hcontrol
    exact steps_land hcontrol

end State

end Fibers
