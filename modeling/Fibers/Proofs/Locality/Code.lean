import Fibers.Proofs.Probe.Bounce

/-!
# Steps are local

A step writes to the log and does not read it, and of the running context's stack it looks at the top.
What it does there is a *deed*: to go on, to switch to another context, or to deal with the one that
has just switched here.  Which deed it is depends on none of the parked stacks.  So a state can be put
on top of another log, beside other contexts, or above further frames, and the step goes the same way.
-/

namespace Fibers

/-! ## Worlds with an older log -/

namespace World

/-- The world with further entries at the old end of its log. -/
def onto (base : List LogEntry) (w : World) : World := { w with log := w.log ++ base }

variable (base : List LogEntry) (w : World)

@[simp] theorem onto_nil : w.onto [] = w := by
  simp [onto]

@[simp] theorem onto_report (e : LogEntry) : (w.onto base).report e = (w.report e).onto base := rfl

@[simp] theorem onto_trace (e : TraceEvent) : (w.onto base).trace e = (w.trace e).onto base := rfl

@[simp] theorem onto_note (label : String) (n : Note) :
    (w.onto base).note label n = (w.note label n).onto base := rfl

@[simp] theorem onto_setCell (name : String) (value : UInt64) :
    (w.onto base).setCell name value = (w.setCell name value).onto base := rfl

@[simp] theorem onto_take (name : String) :
    (w.onto base).take name = ((w.take name).1, (w.take name).2.onto base) := by
  simp only [take, onto]
  split <;> rfl

@[simp] theorem onto_put (name : String) (h : Handle) :
    (w.onto base).put name h = ((w.put name h).1, (w.put name h).2.onto base) := by
  simp only [put, onto]
  split <;> rfl

@[simp] theorem onto_askForStack (name owner : Option String) (k : StackKind) :
    (w.onto base).askForStack name owner k = (w.askForStack name owner k).onto base := by
  cases owner <;> rfl

@[simp] theorem onto_lendStack (memory : Memory) (owner : Option String) :
    (w.onto base).lendStack memory owner = (w.lendStack memory owner).onto base := rfl

@[simp] theorem onto_returnStack (owner : Option String) (k : StackKind) :
    (w.onto base).returnStack owner k = (w.returnStack owner k).onto base := by
  cases owner <;> rfl

end World

namespace Scene

def onto (base : List LogEntry) (s : Scene) : Scene := { s with world := s.world.onto base }

variable (base : List LogEntry) (s : Scene)

@[simp] theorem onto_world : (s.onto base).world = s.world.onto base := rfl

@[simp] theorem onto_code : (s.onto base).code = s.code := rfl

@[simp] theorem onto_note (n : Note) : (s.onto base).note n = (s.note n).onto base := rfl

@[simp] theorem onto_declare (e : Entry) : (s.onto base).declare e = (s.declare e).onto base := rfl

@[simp] theorem onto_enter (kind : BlockKind) (code : List Op) :
    (s.onto base).enter kind code = (s.enter kind code).onto base := rfl

@[simp] theorem onto_flow (f : Flow) : (s.onto base).flow f = (s.flow f).onto base := rfl

@[simp] theorem onto_prepend (ops : List Op) :
    (s.onto base).prepend ops = (s.prepend ops).onto base := by
  simp only [prepend, onto_code]
  split <;> rfl

@[simp] theorem onto_take (slot : SlotName) :
    (s.onto base).take slot = ((s.take slot).1, (s.take slot).2.onto base) := by
  cases slot with
  | own name => rfl
  | shared name => simp only [take, onto_world, World.onto_take]; rfl

@[simp] theorem onto_put (slot : SlotName) (h : Handle) :
    (s.onto base).put slot h = ((s.put slot h).1, (s.put slot h).2.onto base) := by
  cases slot with
  | own name => rfl
  | shared name => simp only [put, onto_world, World.onto_put]; rfl

@[simp] theorem onto_look (slot : SlotName) :
    (s.onto base).look slot = ((s.look slot).1, (s.look slot).2.onto base) := by
  simp only [look, onto_take, onto_put]

@[simp] theorem onto_takeAll (slots : List SlotName) :
    (s.onto base).takeAll slots = ((s.takeAll slots).1, (s.takeAll slots).2.onto base) := by
  induction slots generalizing s with
  | nil => rfl
  | cons slot rest ih => simp only [takeAll, onto_take, ih]

@[simp] theorem onto_capture (label : String) (argument : SlotName) (captures : List String)
    (moves : List SlotName) (code : List Op) :
    (s.onto base).capture label argument captures moves code =
      ((s.capture label argument captures moves code).1,
        (s.capture label argument captures moves code).2.onto base) := by
  have hcounted : { (s.onto base) with world :=
      { (s.onto base).world with liveGuards := (s.onto base).world.liveGuards + captures.length } } =
      Scene.onto base { s with world :=
        { s.world with liveGuards := s.world.liveGuards + captures.length } } := rfl
  simp only [capture, hcounted, onto_takeAll]

@[simp] theorem onto_defaultResult :
    (s.onto base).defaultResult = (s.defaultResult.1, s.defaultResult.2.onto base) := by
  simp only [defaultResult, onto_code]
  cases s.code.role with
  | called argument => exact onto_take base s argument
  | program | cleanup => rfl

end Scene

@[simp] theorem dropFirst_append (entries : List Entry) (stack tail : List Frame) :
    dropFirst entries (stack ++ tail) = dropFirst entries stack ++ tail := by
  cases entries <;> rfl

namespace State

/-! ## Deeds -/

/-- What a step does, as far as the top of its stack tells. -/
inductive Deed where
  | go (w : World) (stack : List Frame) (control : Control)
  /-- Switches to another context, with a further frame that waits. -/
  | leave (w : World) (top : Frame) (stack : List Frame) (target : ContextId) (signal : Signal)
  | launch (w : World) (top : Frame) (stack : List Frame) (fiber : ContextId) (record : Record)
  | answer (prober : ContextId) (binding : Affinity)
  | call (source : ContextId)
  | release (source : ContextId)
  | halt (outcome : Outcome) (w : World)

/-- A state on top of another log and of further frames, and beside other contexts. -/
def within (s : State) (base : List LogEntry) (contexts : List (ContextId × List Frame))
    (tail : List Frame) : State :=
  { s with world := s.world.onto base, stack := s.stack ++ tail, contexts := contexts }

/-- Does a deed in a state that was put on top of a log and of some frames. -/
def Deed.perform (base : List LogEntry) (tail : List Frame) (s : State) : Deed -> Config
  | go w stack control =>
      .active { s with world := w.onto base, stack := stack ++ tail, control := control }
  | leave w top stack target signal =>
      s.transfer (w.onto base) (top :: (stack ++ tail)) target signal
  | launch w top stack fiber record =>
      (s.grown fiber).transfer (w.onto base) (top :: (stack ++ tail)) fiber (.start (some record))
  | answer prober binding => s.answer prober binding
  | call source => s.callOnTop source
  | release source => s.release source
  | halt outcome w => .halted outcome (w.onto base)

/-- Frames that keep a step from looking at what is below them. -/
def Shields : List Frame -> Prop
  | [] | [.code _] | [.discarding [] (some _)] => False
  | _ => True

/-- What comes of a state wherever it is put is one deed. -/
def Does (s : State)
    (next : List LogEntry -> List (ContextId × List Frame) -> List Frame -> Config) : Prop :=
  exists d : Deed, forall base contexts tail, tail = [] ∨ Shields s.stack ->
    next base contexts tail = d.perform base tail (s.within base contexts tail)

variable {s : State} {scene : Scene} {a : Activation} {below : List Frame}

@[simp] theorem running_within (base : List LogEntry) (contexts : List (ContextId × List Frame))
    (tail : List Frame) : (s.within base contexts tail).running = s.running := rfl

@[simp] theorem kind_within (base : List LogEntry) (contexts : List (ContextId × List Frame))
    (tail : List Frame) : (s.within base contexts tail).kind = s.kind := rfl

theorem stack_within {frame : Frame} (hstack : s.stack = frame :: below) (base : List LogEntry)
    (contexts : List (ContextId × List Frame)) (tail : List Frame) :
    (s.within base contexts tail).stack = frame :: (below ++ tail) := by
  simp only [within, hstack, List.cons_append]

/-- Nothing lies below frames that do not keep a step from looking there. -/
theorem stack_within_nil (hstack : s.stack = []) {base : List LogEntry}
    {contexts : List (ContextId × List Frame)} {tail : List Frame}
    (hshields : tail = [] ∨ Shields s.stack) : (s.within base contexts tail).stack = [] := by
  rw [hstack] at hshields
  simp only [within, hstack, hshields.elim id False.elim, List.append_nil]

theorem Does.go (w : World) (stack : List Frame) : s.Does fun base contexts tail =>
    (s.within base contexts tail).go (w.onto base) (stack ++ tail) :=
  ⟨.go w stack .run, fun _ _ _ _ => rfl⟩

theorem Does.raise (w : World) (cause : Unwind) (entries : List Entry) (stack : List Frame) :
    s.Does fun base contexts tail =>
      (s.within base contexts tail).raise (w.onto base) cause entries (stack ++ tail) :=
  ⟨.go w (.discarding entries (some cause) :: stack) .run, fun _ _ _ _ => rfl⟩

theorem Does.halt (outcome : Outcome) : s.Does fun base contexts tail =>
    .halted outcome (s.within base contexts tail).world :=
  ⟨.halt outcome s.world, fun _ _ _ _ => rfl⟩

theorem Does.drop (w : World) (entries : List Entry) (stack : List Frame) :
    s.Does fun base contexts tail =>
      (s.within base contexts tail).go (w.onto base) (dropFirst entries (stack ++ tail)) := by
  refine ⟨.go w (dropFirst entries stack) .run, fun base contexts tail _ => ?_⟩
  simp only [dropFirst_append, State.go, Deed.perform]

theorem Does.leave (w : World) (top : Frame) (stack : List Frame) (target : ContextId)
    (signal : Signal) : s.Does fun base contexts tail =>
      (s.within base contexts tail).transfer (w.onto base) (top :: (stack ++ tail)) target signal :=
  ⟨.leave w top stack target signal, fun _ _ _ _ => rfl⟩

/-! ## Operations -/

variable (scene)

theorem does_depart (target : ContextId) (switch : SwitchSpec) (onTop : Option Closure) :
    s.Does fun base contexts tail => (s.within base contexts tail).depart (scene.onto base)
      (below ++ tail) target switch onTop := by
  let host := scene.world.hosts.resolve switch.host
  let waiting := Frame.calling (.resume host onTop switch.target) scene.code
  cases onTop with
  | none => exact Does.leave (scene.world.trace (.resuming target host)) waiting below target _
  | some f => exact Does.leave (scene.world.trace (.resumingOnTop target host)) waiting below target _

theorem does_probe (target : ContextId) (query : Query) (purpose : ProbePurpose) :
    s.Does fun base contexts tail => (s.within base contexts tail).probe (scene.onto base)
      (below ++ tail) target query purpose :=
  Does.leave (scene.world.trace (.probed target query))
    (.calling (.probe query none purpose) scene.code) below target _

theorem does_panic (payload : Payload) (captured : List Entry) :
    s.Does fun base contexts tail => (s.within base contexts tail).panic (scene.onto base)
      (below ++ tail) payload captured :=
  Does.raise scene.world (.panic payload) captured (.code scene.code :: below)

theorem does_proceed :
    s.Does fun base contexts tail =>
      (s.within base contexts tail).proceed (scene.onto base) (below ++ tail) :=
  Does.go scene.world (.code scene.code :: below)

theorem does_store (pending : List (SlotName × Handle)) (note : Option Note) :
    s.Does fun base contexts tail =>
      (s.within base contexts tail).store (scene.onto base) (below ++ tail) pending note :=
  Does.go scene.world (.calling (.store pending note) scene.code :: below)

theorem does_failBuild (body : Closure) (cause : BuildError) :
    s.Does fun base contexts tail =>
      (s.within base contexts tail).failBuild (scene.onto base) (below ++ tail) body cause :=
  Does.drop scene.world body.captured (.calling (.failBuild cause) scene.code :: below)

theorem does_launch (slot : SlotName) (fiber : ContextId) (record : Record) (usable : Region) :
    s.Does fun base contexts tail => (s.within base contexts tail).launch (scene.onto base)
      (below ++ tail) slot fiber record usable :=
  ⟨.launch ((scene.world.settle record.lease.stack fiber (usable.top - 1)).trace
      (.registering record.lease.stack)) (.calling (.create slot) scene.code) below fiber record,
    fun _ _ _ _ => rfl⟩

theorem does_resume (switch : SwitchSpec) (onTop : Option Closure) :
    s.Does fun base contexts tail => (s.within base contexts tail).resume (scene.onto base)
      (below ++ tail) switch onTop := by
  simp only [State.resume, Scene.onto_take]
  generalize scene.take switch.slot = taken
  rcases taken with ⟨held, scene'⟩
  cases held with
  | empty => cases switch.checked <;> exact does_panic _ _ _
  | live target =>
      cases switch.checked with
      | false => exact does_depart _ target switch onTop
      | true => exact does_probe _ target .affinity (.check switch onTop)

theorem does_ask (question : Question) (slot : SlotName) :
    s.Does fun base contexts tail => (s.within base contexts tail).ask (scene.onto base)
      (below ++ tail) question slot := by
  simp only [State.ask, Scene.onto_take]
  generalize scene.take slot = taken
  rcases taken with ⟨held, scene'⟩
  cases held with
  | empty => exact does_panic _ _ []
  | live target => exact does_probe _ target question.query (.question question slot)

theorem does_place (spec : FiberSpec) (body : Closure) (fiber : ContextId) (stack : Region)
    (size : Nat) :
    s.Does fun base contexts tail => (s.within base contexts tail).place (scene.onto base)
      (below ++ tail) spec body fiber stack size := by
  simp only [State.place, kind_within, Scene.onto_world, World.onto_returnStack]
  cases Placement.onStack stack size with
  | ok placement => exact does_launch scene _ _ _ _
  | error cause =>
      exact does_failBuild { scene with
        world := scene.world.returnStack spec.allocator.label? s.kind } body _

theorem does_create (spec : FiberSpec) (body : Closure) :
    s.Does fun base contexts tail => (s.within base contexts tail).create (scene.onto base)
      (below ++ tail) spec body := by
  have hmemory : forall (base : List LogEntry) (w : World), (w.onto base).memory = w.memory :=
    fun _ _ => rfl
  have hregistry : forall (base : List LogEntry) (w : World),
      (w.onto base).registry = w.registry :=
    fun _ _ => rfl
  simp only [State.create, kind_within, Scene.onto_world, World.onto_askForStack, hmemory,
    hregistry]
  generalize scene.world.askForStack spec.name spec.allocator.label? s.kind = w
  cases spec.allocator.supply w.memory w.registry.ranges with
  | error cause => exact does_failBuild { scene with world := w } body _
  | ok found =>
      rcases found with ⟨stack, memory⟩
      simp only [World.onto_lendStack]
      exact does_place { scene with world := w.lendStack memory _ } spec body _ stack recordSize

/-- What code does with the next operation is the same wherever it runs. -/
theorem does_execute (op : Op) :
    s.Does fun base contexts tail =>
      (s.within base contexts tail).execute (scene.onto base) (below ++ tail) op := by
  cases op with
  | create spec captures moves body =>
      simp only [State.execute, Scene.onto_capture]
      exact does_create _ spec _
  | resume switch => exact does_resume _ switch none
  | resumeWith switch captures moves onTop =>
      simp only [State.execute, Scene.onto_capture, Scene.onto_code]
      exact does_resume _ switch _
  | ask question slot => exact does_ask _ question slot
  | drop slot =>
      simp only [State.execute, Scene.onto_take]
      generalize scene.take slot = taken
      rcases taken with ⟨held, scene'⟩
      exact Does.drop scene'.world held.entries (.code scene'.code :: below)
  | move slot target =>
      simp only [State.execute, Scene.onto_take]
      exact does_store _ _ none
  | isEmpty slot | display slot | debug slot =>
      simp only [State.execute, Scene.onto_look, Scene.onto_note]
      exact does_proceed _
  | compare a b =>
      simp only [State.execute, Scene.onto_take]
      split <;> exact does_store _ _ _
  | collect slots =>
      simp only [State.execute, Scene.onto_takeAll]
      exact does_store _ _ _
  | guard label onDrop =>
      exact does_proceed ({ scene with world :=
        { scene.world with liveGuards := scene.world.liveGuards + 1 } }.declare (.guard label onDrop))
  | scope ops | rounds count ops | whileLive slot limit ops | attempt swallow ops =>
      exact does_proceed (scene.enter _ _)
  | leaveLoop => exact does_proceed (scene.flow .leavingLoop)
  | giveBack slot =>
      simp only [State.execute, Scene.onto_take, Scene.onto_flow]
      exact does_proceed _
  | ifEmpty slot yes no =>
      simp only [State.execute, Scene.onto_look, Scene.onto_prepend]
      exact does_proceed _
  | ifCell cell atLeast yes no =>
      have hcell : forall base : List LogEntry,
          (scene.world.onto base).cell cell = scene.world.cell cell := fun _ => rfl
      simp only [State.execute, Scene.onto_world, hcell, Scene.onto_prepend]
      exact does_proceed _
  | panic payload => exact does_panic _ payload []
  | say message => exact does_proceed (scene.note (.said message))
  | whereAmI => exact does_proceed (scene.note (.place s.kind))
  | setCell cell source =>
      exact does_proceed ({ scene with
        world := scene.world.setCell cell (scene.world.read source) })
  | addCell cell source =>
      exact does_proceed ({ scene with
        world := scene.world.setCell cell (scene.world.cell cell + scene.world.read source) })
  | printCell cell => exact does_proceed (scene.note (.cell cell (scene.world.cell cell)))
  | compareHosts a b =>
      exact does_proceed (scene.note
        (.comparedHosts (scene.world.hosts.find a) (scene.world.hosts.find b)))
  | checkAffinity binding host =>
      exact does_proceed (scene.note (.permission
        (binding.elim Affinity.unbound fun name => .bound (scene.world.hosts.find name))
        (scene.world.hosts.find host)))
  | currentHost => exact does_proceed (scene.note (.currentHost scene.world.hosts.self))
  | defaultAffinity => exact does_proceed (scene.note (.defaultAffinity default))
  | describeStacks settings => exact does_proceed (scene.note (.stackSettings settings))

end State

end Fibers
