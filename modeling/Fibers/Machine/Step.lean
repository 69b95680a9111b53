import Fibers.Machine.Execute
import Fibers.Machine.Unwind

/-!
# Steps

A step either lets the topmost frame of the running context go on, or takes in a switch that has
landed.  Every state has one step, which leads to another state or to the end of the run.
-/

namespace Fibers

/-- The result that code takes if it comes to the end of its body without one. -/
def Scene.defaultResult (s : Scene) : Handle × Scene :=
  match s.code.role with
  | .called argument => s.take argument
  | .program | .cleanup => (.empty, s)

/--
What is dropped before a block is closed: a result that nobody takes, as soon as only the body of
its code is open.
-/
def Activation.unwanted (a : Activation) (outer : List Block) : List Entry :=
  match a.role, outer with
  | .cleanup, [] => a.flow.result.entries
  | _, _ => []

namespace State

/-! ## Code -/

/-- Hands the result of finished code to the frame below. -/
def give (s : State) (result : Handle) (stack : List Frame) : Config :=
  match stack with
  | .onTop source :: below =>
      match result with
      | .live next =>
          .active { s with stack := below, control := .landed next (.message .handover) }
      | .empty =>
          .active { s with stack := below, control := .landed source (.message .farewell) }
  | .base (.busy lease) :: below =>
      match result with
      | .live next => s.go s.world (.base (.leaving lease (.returned next)) :: below)
      | .empty => s.breach .emptyResult
  | .discarding entries cause :: below =>
      s.go s.world (.discarding (result.entries ++ entries) cause :: below)
  | .root .program :: below => s.go s.world (dropFirst result.entries (.root .ending :: below))
  | _ => s.stuck

/--
Goes on after a block whose entries are gone: with the next round of a loop, or with what is around
it.
-/
def endBlock (s : State) (a : Activation) (b : Block) (outer : List Block) (below : List Frame) :
    Config :=
  let around : Activation := { a with blocks := outer }
  match a.flow with
  | .onward =>
      match b.kind with
      | .rounds (left + 1) code =>
          let round : Block := ⟨.rounds left code, code, []⟩
          s.go s.world (.code { a with blocks := round :: outer } :: below)
      | .whileLive slot (left + 1) code =>
          let (h, scene) := (Scene.mk s.world around).look slot
          if h.isEmpty then s.proceed scene below
          else s.proceed (scene.enter (.whileLive slot left code) code) below
      | _ => s.go s.world (.code around :: below)
  | .leavingLoop =>
      if b.kind.isLoop then s.go s.world (.code { around with flow := .onward } :: below)
      else s.go s.world (.code around :: below)
  | .returning _ => s.go s.world (.code around :: below)

/--
Lets running code go on: with its next operation, or by closing the innermost block.  Code that
comes to the end of its body takes its result before the body is closed.
-/
def runCode (s : State) (a : Activation) (below : List Frame) : Config :=
  match a.blocks with
  | [] => s.give a.flow.result below
  | b :: outer =>
      match a.flow, b.code, outer with
      | .onward, op :: rest, _ =>
          s.execute ⟨s.world, { a with blocks := { b with code := rest } :: outer }⟩ below op
      | .onward, [], [] | .leavingLoop, _, [] =>
          let (h, scene) := (Scene.mk s.world a).defaultResult
          s.proceed (scene.flow (.returning h)) below
      | _, _, _ =>
          match a.unwanted outer, b.entries with
          | e :: es, _ =>
              s.go s.world
                (.discarding (e :: es) none ::
                  .code { a with flow := .returning .empty } :: below)
          | [], [] => s.endBlock a b outer below
          | [], e :: es =>
              let closed : Block := { b with code := [], entries := [] }
              s.go s.world
                (.discarding (e :: es) none :: .code { a with blocks := closed :: outer } :: below)

/-! ## Calls that go on by themselves -/

/-- Goes on with a call once what was dropped above it is gone. -/
def runCall (s : State) (call : Call) (a : Activation) (below : List Frame) : Config :=
  match call with
  | .store [] note =>
      s.go (note.elim s.world (s.world.note a.label)) (.code a :: below)
  | .store ((slot, h) :: pending) note =>
      let (old, scene) := (Scene.mk s.world a).put slot h
      s.go scene.world (dropFirst old.entries (.calling (.store pending note) scene.code :: below))
  | .failBuild cause =>
      s.go ((s.world.trace .spanLeft).note a.label (.buildFailed cause)) (.code a :: below)
  | .refuse refusal slot onRefusal =>
      let scene := (Scene.mk s.world a).note (.refused refusal)
      match onRefusal with
      | .keep => s.store scene below [(slot, refusal.handle)] none
      | .discard => s.go scene.world (dropFirst refusal.handle.entries (.code scene.code :: below))
  | .create _ | .probe _ _ _ | .resume _ _ _ => s.stuck

/-! ## Dropping -/

/--
Drops the next entry.  After the last one, the frames below go on, or the unwind that this belongs
to.
-/
def runDiscarding (s : State) (entries : List Entry) (cause : Option Unwind)
    (below : List Frame) : Config :=
  match entries with
  | [] =>
      match cause with
      | none => s.go s.world below
      | some cause => s.unwindInto cause below
  | .slot _ .empty :: rest => s.go s.world (.discarding rest cause :: below)
  | .slot _ (.live fiber) :: rest =>
      s.transfer (s.world.trace (.abandoned fiber))
        (.dropping :: .discarding rest cause :: below) fiber (.message .eviction)
  | .guard label onDrop :: rest =>
      let w := { s.world with liveGuards := s.world.liveGuards - 1 }.report (.dropped label s.kind)
      match onDrop with
      | [] => s.go w (.discarding rest cause :: below)
      | _ :: _ =>
          let a := Activation.ofCode .cleanup ("~" ++ label) onDrop
          s.go w (.code a :: .discarding rest cause :: below)

/-! ## The lowest frames -/

/-- Goes on at the lowest frame of the main program: the end of the run. -/
def runRoot (s : State) (stage : RootStage) (below : List Frame) : Config :=
  match stage with
  | .program => s.stuck
  | .ending =>
      s.go (s.world.report .ended) (.root (.draining drainRounds [] true none) :: below)
  | .draining roundsLeft (name :: names) found panic =>
      match s.world.take name with
      | (.live fiber, w) =>
          s.go w
            (.discarding (Handle.live fiber).entries none ::
              .root (.draining roundsLeft names true panic) :: below)
      | (.empty, w) => s.go w (.root (.draining roundsLeft names found panic) :: below)
  | .draining (roundsLeft + 1) [] true panic =>
      s.go s.world (.root (.draining roundsLeft s.world.globalNames false panic) :: below)
  | .draining _ [] _ panic => .halted (panic.elim .finished .panicked) s.world

/-- Goes on at the lowest frame of a fiber: once its body is over, control leaves it for good. -/
def runBase (s : State) (stage : FiberStage) (below : List Frame) : Config :=
  match stage with
  | .leaving lease ending =>
      s.transfer (s.world.trace (.exiting lease.name)) (.base (.exited lease) :: below) ending.next
        .exit
  | _ => s.stuck

/-! ## All frames -/

def run (s : State) : Config :=
  match s.stack with
  | .code a :: below => s.runCode a below
  | .calling call a :: below => s.runCall call a below
  | .discarding entries cause :: below => s.runDiscarding entries cause below
  | .base stage :: below => s.runBase stage below
  | .root stage :: below => s.runRoot stage below
  | .dropping :: _ | .onTop _ :: _ | [] => s.stuck

def step (s : State) : Config :=
  match s.control with
  | .run => s.run
  | .landed source signal => s.land source signal

end State

end Fibers
