import Fibers.Machine.Switch

/-!
# Operations

Running code takes one operation after another.  An operation is done at once, or it leaves a frame
behind that waits: for a switch to come back, or for something that is being dropped.
-/

namespace Fibers

/-- The bytes of the record that a fiber keeps on its stack. -/
def recordSize : Nat := 72

namespace World

/-! ## Stacks that come and go -/

/-- An allocator is asked for the stack of a new fiber. -/
def askForStack (w : World) (name owner : Option String) (k : StackKind) : World :=
  let w := (w.trace (.spanMade name)).trace .spanEntered
  owner.elim w fun label => w.report (.allocated label k)

/-- A stack has been handed out. -/
def lendStack (w : World) (memory : Memory) (owner : Option String) : World :=
  { w with memory := memory, liveStacks := w.liveStacks + owner.elim 0 fun _ => 1 }

/-- A stack on which no fiber ever lived is given back. -/
def returnStack (w : World) (owner : Option String) (k : StackKind) : World :=
  owner.elim w fun label =>
    { w with liveStacks := w.liveStacks - 1 }.report (.deallocated label k)

/-- A stack is registered, and with it an address that is on the stack of a fiber. -/
def settle (w : World) (stack : Region) (fiber : ContextId) (address : Nat) : World :=
  { w with
    registry := w.registry.insert stack
    address := fun c => if c = fiber then address else w.address c }

end World

namespace State

def proceed (s : State) (scene : Scene) (below : List Frame) : Config :=
  s.go scene.world (.code scene.code :: below)

/-- Puts handles back into slots, and then makes a note. -/
def store (s : State) (scene : Scene) (below : List Frame) (pending : List (SlotName × Handle))
    (note : Option Note) : Config :=
  s.go scene.world (.calling (.store pending note) scene.code :: below)

/-- Panics in the running code.  What has been captured for the failing call goes first. -/
def panic (s : State) (scene : Scene) (below : List Frame) (payload : Payload)
    (captured : List Entry) : Config :=
  s.raise scene.world (.panic payload) captured (.code scene.code :: below)

/-! ## Making fibers -/

/--
Ends the making of a fiber for the given cause: its closure is dropped, and then the failure noted.
-/
def failBuild (s : State) (scene : Scene) (below : List Frame) (body : Closure)
    (cause : BuildError) : Config :=
  s.go scene.world (dropFirst body.captured (.calling (.failBuild cause) scene.code :: below))

/-- Brings a new fiber up on a stack. -/
def launch (s : State) (scene : Scene) (below : List Frame) (slot : SlotName) (fiber : ContextId)
    (record : Record) (usable : Region) : Config :=
  let stack := record.lease.stack
  let w := (scene.world.settle stack fiber (usable.top - 1)).trace (.registering stack)
  { s with contexts := (fiber, [.base .unborn]) :: s.contexts }.transfer w
    (.calling (.create slot) scene.code :: below) fiber (.start (some record))

/--
Puts a record of the given size onto a stack, and brings up the fiber that lives by it.  A stack that
is too small goes back to where it came from.
-/
def place (s : State) (scene : Scene) (below : List Frame) (spec : FiberSpec) (body : Closure)
    (fiber : ContextId) (stack : Region) (size : Nat) : Config :=
  let owner := spec.allocator.label?
  match Placement.onStack stack size with
  | .ok placement =>
      s.launch scene below spec.slot fiber ⟨⟨spec.name, stack, owner⟩, some body⟩ placement.usable
  | .error cause =>
      s.failBuild { scene with world := scene.world.returnStack owner s.kind } below body cause

/-- Makes a fiber: a stack is asked for, and the body goes onto it.  The stack's number names it. -/
def create (s : State) (scene : Scene) (below : List Frame) (spec : FiberSpec)
    (body : Closure) : Config :=
  let owner := spec.allocator.label?
  let w := scene.world.askForStack spec.name owner s.kind
  match spec.allocator.supply w.memory w.registry.ranges with
  | .error cause => s.failBuild { scene with world := w } below body (.allocation cause)
  | .ok (stack, memory) =>
      s.place { scene with world := w.lendStack memory owner } below spec body w.memory.next stack
        recordSize

/-! ## Switching -/

def emptyHandlePanic (verb : String) : Payload := .text ("cannot " ++ verb ++ " an empty fiber")

/-- Switches through the handle in a slot: at once, or after a probe has told whether it may. -/
def resume (s : State) (scene : Scene) (below : List Frame) (switch : SwitchSpec)
    (onTop : Option Closure) : Config :=
  match scene.take switch.slot, switch.checked with
  | (.live target, scene), false => s.depart scene below target switch onTop
  | (.live target, scene), true => s.probe scene below target .affinity (.check switch onTop)
  | (.empty, scene), false =>
      s.panic scene below (emptyHandlePanic "resume") (Closure.leftover onTop)
  | (.empty, scene), true =>
      s.panic scene below (emptyHandlePanic "probe") (Closure.leftover onTop)

/-- Puts a question to the context whose handle is in a slot. -/
def ask (s : State) (scene : Scene) (below : List Frame) (question : Question)
    (slot : SlotName) : Config :=
  match scene.take slot with
  | (.live target, scene) => s.probe scene below target question.query (.question question slot)
  | (.empty, scene) => s.panic scene below (emptyHandlePanic "probe") []

/-! ## All operations -/

def execute (s : State) (scene : Scene) (below : List Frame) : Op -> Config
  | .create spec captures moves body =>
      let (f, scene) := scene.capture spec.label (.own "caller") captures moves body
      s.create scene below spec f
  | .resume switch => s.resume scene below switch none
  | .resumeWith switch captures moves onTop =>
      let (f, scene) := scene.capture (scene.code.label ++ "^") (.own "source") captures moves onTop
      s.resume scene below switch (some f)
  | .ask question slot => s.ask scene below question slot
  | .drop slot =>
      let (h, scene) := scene.take slot
      s.go scene.world (dropFirst h.entries (.code scene.code :: below))
  | .move slot target =>
      let (h, scene) := scene.take slot
      s.store scene below [(target, h)] none
  | .isEmpty slot =>
      let (h, scene) := scene.look slot
      s.proceed (scene.note (.isEmpty h.isEmpty)) below
  | .display slot =>
      let (h, scene) := scene.look slot
      s.proceed (scene.note (.display h)) below
  | .debug slot =>
      let (h, scene) := scene.look slot
      s.proceed (scene.note (.debug h)) below
  | .compare a b =>
      let (ha, scene) := scene.take a
      if a = b then s.store scene below [(a, ha)] (some (.compared ha ha))
      else
        let (hb, scene) := scene.take b
        s.store scene below [(b, hb), (a, ha)] (some (.compared ha hb))
  | .collect slots =>
      let (taken, scene) := scene.takeAll slots
      s.store scene below taken (some (.collected (taken.map Prod.snd)))
  | .guard label onDrop =>
      let w := { scene.world with liveGuards := scene.world.liveGuards + 1 }
      s.proceed ({ scene with world := w }.declare (.guard label onDrop)) below
  | .scope ops => s.proceed (scene.enter .scope ops) below
  | .rounds count ops => s.proceed (scene.enter (.rounds count ops) []) below
  | .whileLive slot limit ops => s.proceed (scene.enter (.whileLive slot limit ops) []) below
  | .leaveLoop => s.proceed (scene.flow .leavingLoop) below
  | .giveBack slot =>
      let (h, scene) := scene.take slot
      s.proceed (scene.flow (.returning h)) below
  | .ifEmpty slot yes no =>
      let (h, scene) := scene.look slot
      s.proceed (scene.prepend (if h.isEmpty then yes else no)) below
  | .ifCell cell atLeast yes no =>
      let reached := atLeast ≤ (scene.world.cell cell).toNat
      s.proceed (scene.prepend (if reached then yes else no)) below
  | .panic payload => s.panic scene below payload []
  | .attempt swallow ops => s.proceed (scene.enter (.attempt swallow) ops) below
  | .say message => s.proceed (scene.note (.said message)) below
  | .whereAmI => s.proceed (scene.note (.place s.kind)) below
  | .setCell cell source =>
      s.proceed { scene with world := scene.world.setCell cell (scene.world.read source) } below
  | .addCell cell source =>
      let sum := scene.world.cell cell + scene.world.read source
      s.proceed { scene with world := scene.world.setCell cell sum } below
  | .printCell cell => s.proceed (scene.note (.cell cell (scene.world.cell cell))) below
  | .compareHosts a b =>
      let hosts := scene.world.hosts
      s.proceed (scene.note (.comparedHosts (hosts.find a) (hosts.find b))) below
  | .checkAffinity binding host =>
      let binding := binding.elim Affinity.unbound fun name => .bound (scene.world.hosts.find name)
      s.proceed (scene.note (.permission binding (scene.world.hosts.find host))) below
  | .currentHost => s.proceed (scene.note (.currentHost scene.world.hosts.self)) below
  | .defaultAffinity => s.proceed (scene.note (.defaultAffinity default)) below
  | .describeStacks settings => s.proceed (scene.note (.stackSettings settings)) below

end State

end Fibers
