import Fibers.Proofs.Turn.Basic

/-!
# Stacks on loan

A program's own allocators hand stacks out and get them back.  The world counts the stacks that are
out, and the log tells which allocators have got one back.  Few steps touch any of this: those that
make a fiber, or fail to, and those that take in the end of one.
-/

namespace Fibers

/-! ## The ledger -/

/-- The allocator that has got a stack back, if this is what is reported. -/
def LogEntry.returned? : LogEntry -> Option String
  | deallocated label _ => some label
  | _ => none

/-- What the world knows of the stacks that a program's own allocators lend. -/
structure Ledger where
  /-- How many stacks are out. -/
  out : Int
  /-- The allocators that have got a stack back, the latest first. -/
  returned : List String

/-- Enters stacks that are handed out, and others that come back. -/
def Ledger.enter (l : Ledger) (lent returned : List String) : Ledger where
  out := l.out + lent.length - returned.length
  returned := returned ++ l.returned

@[simp] theorem Ledger.enter_nil (l : Ledger) : l.enter [] [] = l := by
  simp [enter]

def World.ledger (w : World) : Ledger where
  out := w.liveStacks
  returned := w.log.filterMap LogEntry.returned?

namespace World

variable {w : World}

@[simp] theorem ledger_note (label : String) (n : Note) : (w.note label n).ledger = w.ledger := rfl

@[simp] theorem ledger_trace (e : TraceEvent) : (w.trace e).ledger = w.ledger := rfl

@[simp] theorem ledger_ended : (w.report .ended).ledger = w.ledger := rfl

@[simp] theorem ledger_dropped (label : String) (k : StackKind) :
    (w.report (.dropped label k)).ledger = w.ledger := rfl

@[simp] theorem ledger_setCell (name : String) (value : UInt64) :
    (w.setCell name value).ledger = w.ledger := rfl

@[simp] theorem ledger_guards (n : Int) : World.ledger { w with liveGuards := n } = w.ledger := rfl

@[simp] theorem ledger_registry (g : Registry) :
    World.ledger { w with registry := g } = w.ledger := rfl

@[simp] theorem ledger_settle (stack : Region) (fiber : ContextId) (address : Nat) :
    (w.settle stack fiber address).ledger = w.ledger := rfl

@[simp] theorem ledger_take (name : String) : (w.take name).2.ledger = w.ledger := by
  cases hx : exchangeShared name .empty w.globals <;> simp [take, hx, ledger]

@[simp] theorem ledger_put (name : String) (h : Handle) : (w.put name h).2.ledger = w.ledger := by
  cases hx : exchangeShared name h w.globals <;> simp [put, hx, ledger]

@[simp] theorem ledger_askForStack (name owner : Option String) (k : StackKind) :
    (w.askForStack name owner k).ledger = w.ledger := by
  cases owner <;> rfl

theorem ledger_lendStack (memory : Memory) (owner : Option String) :
    (w.lendStack memory owner).ledger = w.ledger.enter owner.toList [] := by
  cases owner <;> simp [lendStack, ledger, Ledger.enter]

theorem ledger_returnStack (owner : Option String) (k : StackKind) :
    (w.returnStack owner k).ledger = w.ledger.enter [] owner.toList := by
  cases owner with
  | none => simp [returnStack]
  | some label => simp [returnStack, report, ledger, Ledger.enter, LogEntry.returned?]

end World

namespace Scene

variable {s : Scene}

@[simp] theorem ledger_take (slot : SlotName) : (s.take slot).2.world.ledger = s.world.ledger := by
  cases slot <;> simp [take]

@[simp] theorem ledger_put (slot : SlotName) (h : Handle) :
    (s.put slot h).2.world.ledger = s.world.ledger := by
  cases slot <;> simp [put]

@[simp] theorem ledger_look (slot : SlotName) : (s.look slot).2.world.ledger = s.world.ledger := by
  simp [look]

@[simp] theorem ledger_takeAll (slots : List SlotName) :
    (s.takeAll slots).2.world.ledger = s.world.ledger := by
  induction slots generalizing s with
  | nil => rfl
  | cons slot rest ih => simp [takeAll, ih]

@[simp] theorem ledger_capture (label : String) (argument : SlotName) (captures : List String)
    (moves : List SlotName) (ops : List Op) :
    (s.capture label argument captures moves ops).2.world.ledger = s.world.ledger := by
  simp [capture]

@[simp] theorem ledger_note (n : Note) : (s.note n).world.ledger = s.world.ledger := rfl

@[simp] theorem ledger_declare (e : Entry) : (s.declare e).world.ledger = s.world.ledger := rfl

@[simp] theorem ledger_enter (kind : BlockKind) (code : List Op) :
    (s.enter kind code).world.ledger = s.world.ledger := rfl

@[simp] theorem ledger_prepend (ops : List Op) :
    (s.prepend ops).world.ledger = s.world.ledger := by
  unfold prepend
  split <;> rfl

@[simp] theorem ledger_flow (f : Flow) : (s.flow f).world.ledger = s.world.ledger := rfl

@[simp] theorem ledger_defaultResult : s.defaultResult.2.world.ledger = s.world.ledger := by
  unfold defaultResult
  split <;> simp

end Scene

/-! ## Steps that leave it alone -/

def Config.world : Config -> World
  | active s => s.world
  | halted _ w => w

namespace State

variable {s : State} {w : World} {scene : Scene} {below stack : List Frame}

@[simp] theorem world_go : (s.go w stack).world = w := rfl

@[simp] theorem world_halted {outcome : Outcome} : (Config.halted outcome w).world = w := rfl

@[simp] theorem world_breach {v : Violation} : (s.breach v).world = s.world := rfl

@[simp] theorem world_stuck : s.stuck.world = s.world := rfl

@[simp] theorem world_raise {cause : Unwind} {entries : List Entry} :
    (s.raise w cause entries stack).world = w := rfl

@[simp] theorem world_transfer {target : ContextId} {signal : Signal} :
    (s.transfer w stack target signal).world = w := by
  unfold transfer
  split <;> rfl

@[simp] theorem world_proceed : (s.proceed scene below).world = scene.world := rfl

@[simp] theorem world_store {pending : List (SlotName × Handle)} {n : Option Note} :
    (s.store scene below pending n).world = scene.world := rfl

@[simp] theorem world_panic {payload : Payload} {captured : List Entry} :
    (s.panic scene below payload captured).world = scene.world := rfl

@[simp] theorem world_failBuild {body : Closure} {cause : BuildError} :
    (s.failBuild scene below body cause).world = scene.world := rfl

@[simp] theorem ledger_probe {target : ContextId} {query : Query} {purpose : ProbePurpose} :
    (s.probe scene below target query purpose).world.ledger = scene.world.ledger := by
  simp [probe]

@[simp] theorem ledger_depart {target : ContextId} {switch : SwitchSpec} {onTop : Option Closure} :
    (s.depart scene below target switch onTop).world.ledger = scene.world.ledger := by
  cases onTop <;> simp [depart]

@[simp] theorem ledger_resume {switch : SwitchSpec} {onTop : Option Closure} :
    (s.resume scene below switch onTop).world.ledger = scene.world.ledger := by
  have htaken := scene.ledger_take switch.slot
  unfold resume
  split <;> simp_all

@[simp] theorem ledger_ask {question : Question} {slot : SlotName} :
    (s.ask scene below question slot).world.ledger = scene.world.ledger := by
  have htaken := scene.ledger_take slot
  unfold ask
  split <;> simp_all

/-! ## Fibers that are made -/

end State

/-- The stack that an allocator of a program's own hands out when it is asked. -/
def Allocator.lends : Allocator -> List String
  | heap label _ _ => [label]
  | _ => []

/-- A stack that is too small for any fiber goes back at once. -/
def Allocator.takesBack : Allocator -> List String
  | heap label size _ => if size < Placement.required recordSize then [label] else []
  | _ => []

def Op.lends : Op -> List String
  | create spec _ _ _ => spec.allocator.lends
  | _ => []

def Op.takesBack : Op -> List String
  | create spec _ _ _ => spec.allocator.takesBack
  | _ => []

namespace State

variable {s : State} {scene : Scene} {below : List Frame}

@[simp] theorem ledger_launch {slot : SlotName} {fiber : ContextId} {record : Record}
    {usable : Region} :
    (s.launch scene below slot fiber record usable).world.ledger = scene.world.ledger := by
  simp [launch]

theorem ledger_place (spec : FiberSpec) (body : Closure) (fiber : ContextId) (stack : Region)
    (size : Nat) :
    (s.place scene below spec body fiber stack size).world.ledger =
      scene.world.ledger.enter [] (if stack.size < Placement.required size then
        spec.allocator.label?.toList else []) := by
  unfold place
  cases hplaced : Placement.onStack stack size with
  | ok placement =>
      have hfits : ¬ stack.size < Placement.required size := by
        intro hsmall
        rw [Placement.onStack_of_small hsmall] at hplaced
        cases hplaced
      rw [if_neg hfits]
      simp
  | error cause =>
      rw [if_pos (Placement.onStack_eq_error.mp hplaced).1]
      simp [World.ledger_returnStack]

theorem ledger_create (spec : FiberSpec) (body : Closure) :
    (s.create scene below spec body).world.ledger =
      scene.world.ledger.enter spec.allocator.lends spec.allocator.takesBack := by
  unfold create
  dsimp only
  cases hallocator : spec.allocator with
  | failing label message | exceeding label maximum =>
      simp [Allocator.supply, Allocator.lends, Allocator.takesBack]
  | system settings site =>
      split
      · simp [Allocator.lends, Allocator.takesBack]
      · simp [ledger_place, hallocator, World.ledger_lendStack, Allocator.label?, Allocator.lends,
          Allocator.takesBack]
  | heap label size site =>
      simp only [Allocator.supply, Allocator.label?, Allocator.lends, Allocator.takesBack,
        ledger_place, hallocator, site.size_reserve, World.ledger_lendStack, Option.toList_some]
      simp [Ledger.enter]

theorem ledger_execute (op : Op) :
    (s.execute scene below op).world.ledger =
      scene.world.ledger.enter op.lends op.takesBack := by
  cases op with
  | create spec captures moves body =>
      have htaken := scene.ledger_capture spec.label (.own "caller") captures moves body
      rw [<- htaken]
      exact ledger_create spec _
  | compare a b =>
      simp only [execute, Op.lends, Op.takesBack, Ledger.enter_nil]
      split <;> simp
  | _ => simp [execute, Op.lends, Op.takesBack]

/-! ## All steps -/

/-- The allocators that hand out a stack in the next step. -/
def lends (s : State) : List String := s.operation?.toList.flatMap Op.lends

/-- The allocators that get back a stack in the next step that is too small for any fiber. -/
def rejects (s : State) : List String := s.operation?.toList.flatMap Op.takesBack

/-- The allocator that gets back, in the next step, the stack of a fiber that is over. -/
def restores (s : State) : List String :=
  match s.control with
  | .landed source .exit =>
      match s.parked? source with
      | some (.base (.exited lease) :: _) => lease.owner.toList
      | _ => []
  | _ => []

@[simp] theorem world_give {result : Handle} : (s.give result below).world = s.world := by
  unfold give
  split
  · split <;> rfl
  · split <;> rfl
  · rfl
  · rfl
  · rfl

@[simp] theorem ledger_endBlock {a : Activation} {b : Block} {outer : List Block} :
    (s.endBlock a b outer below).world.ledger = s.world.ledger := by
  unfold endBlock
  split
  · split
    · rfl
    · dsimp only
      split <;> simp
    · rfl
  · split <;> rfl
  · rfl

theorem ledger_runCode {a : Activation} (hcontrol : s.control = .run)
    (hstack : s.stack = .code a :: below) :
    (s.runCode a below).world.ledger = s.world.ledger.enter s.lends s.rejects := by
  unfold runCode
  split
  · rename_i hblocks
    simp [lends, rejects, operation?, hcontrol, hstack, hblocks]
  · rename_i b outer hblocks
    split
    · rename_i op rest hflow hcode
      have hop : s.operation? = some op := by
        simp [operation?, hcontrol, hstack, hflow, hblocks, hcode]
      simp [ledger_execute, lends, rejects, hop]
    · rename_i hflow hcode
      simp [lends, rejects, operation?, hcontrol, hstack, hflow, hblocks, hcode]
    · rename_i hflow
      simp [lends, rejects, operation?, hcontrol, hstack, hflow]
    · rename_i _ honward _
      have hop : s.operation? = none := by
        simp only [operation?, hcontrol, hstack, hblocks]
        cases hflow : a.flow with
        | onward =>
            cases hcode : b.code with
            | nil => simp [hcode]
            | cons op rest => exact (honward op rest hflow hcode).elim
        | leavingLoop | returning h => rfl
      have hnone : s.world.ledger.enter s.lends s.rejects = s.world.ledger := by
        simp [lends, rejects, hop]
      rw [hnone]
      split
      · rfl
      · exact ledger_endBlock
      · rfl

@[simp] theorem ledger_runCall {call : Call} {a : Activation} :
    (s.runCall call a below).world.ledger = s.world.ledger := by
  unfold runCall
  split
  · rename_i n
    cases n <;> simp
  · simp
  · simp
  · dsimp only
    split <;> simp
  · rfl
  · rfl
  · rfl

@[simp] theorem ledger_unwindCode {cause : Unwind} {a : Activation} :
    (s.unwindCode cause a below).world.ledger = s.world.ledger := by
  unfold unwindCode
  split
  · rfl
  · rfl
  · split
    · rfl
    · dsimp only
      split <;> simp

@[simp] theorem ledger_unwindInto {cause : Unwind} :
    (s.unwindInto cause below).world.ledger = s.world.ledger := by
  unfold unwindInto
  split
  · exact ledger_unwindCode
  all_goals first | rfl | split <;> rfl

@[simp] theorem ledger_runDiscarding {entries : List Entry} {cause : Option Unwind} :
    (s.runDiscarding entries cause below).world.ledger = s.world.ledger := by
  unfold runDiscarding
  split
  · split <;> simp
  · rfl
  · simp
  · dsimp only
    split <;> rfl

@[simp] theorem ledger_runRoot {stage : RootStage} :
    (s.runRoot stage below).world.ledger = s.world.ledger := by
  unfold runRoot
  split
  · rfl
  · rfl
  · rename_i name names found panic
    have htaken := s.world.ledger_take name
    split <;> simp_all
  · rfl
  · rfl

@[simp] theorem ledger_runBase {stage : FiberStage} :
    (s.runBase stage below).world.ledger = s.world.ledger := by
  unfold runBase
  split <;> simp

theorem ledger_run (hcontrol : s.control = .run) :
    s.run.world.ledger = s.world.ledger.enter s.lends s.rejects := by
  unfold run
  split
  · rename_i hstack
    exact ledger_runCode hcontrol hstack
  all_goals
    rename_i hstack
    simp [lends, rejects, operation?, hcontrol, hstack]

/-! ### Landing -/

@[simp] theorem world_answer {prober : ContextId} {binding : Affinity} :
    (s.answer prober binding).world = s.world := by
  unfold answer
  split
  · exact world_transfer
  · rfl

@[simp] theorem ledger_conclude {a : Activation} {fiber : ContextId} {reply : Reply}
    {purpose : ProbePurpose} :
    (s.conclude ⟨s.world, a⟩ below fiber reply purpose).world.ledger = s.world.ledger := by
  unfold conclude
  split
  · split <;> rfl
  · split
    · dsimp only
      split <;> simp
    · rfl

@[simp] theorem ledger_callBody {record : Record} {caller : Handle} :
    (s.callBody record caller below).world.ledger = s.world.ledger := by
  unfold callBody
  split <;> simp

theorem ledger_receive (source : ContextId) (message : Message) :
    (s.receive source message).world.ledger = s.world.ledger := by
  unfold receive
  split
  · split <;> simp
  · split <;> simp
  · split
    · simp [deliver]
    · simp [deliver]
    · simp
    · split <;> simp
  · split <;> rfl
  · rfl
  · split <;> simp
  · rfl
  · rfl

theorem world_callOnTop (source : ContextId) : (s.callOnTop source).world = s.world := by
  unfold callOnTop
  split <;> rfl

theorem ledger_release {source : ContextId} (hcontrol : s.control = .landed source .exit) :
    (s.release source).world.ledger = s.world.ledger.enter [] s.restores := by
  by_cases hexited : exists lease below, s.parked? source = some (.base (.exited lease) :: below)
  · rcases hexited with ⟨lease, below, hsource⟩
    simp only [release, restores, hcontrol, hsource]
    cases lease.owner with
    | none => exact (Ledger.enter_nil _).symm
    | some label => exact World.ledger_returnStack (some label) _
  · have hrelease : s.release source = s.stuck := by
      unfold release
      split
      · rename_i lease below hsource
        exact absurd ⟨lease, below, hsource⟩ hexited
      · rfl
    have hrestores : s.restores = [] := by
      simp only [restores, hcontrol]
      split
      · rename_i lease below hsource
        exact absurd ⟨lease, below, hsource⟩ hexited
      · rfl
    rw [hrelease, hrestores]
    exact (Ledger.enter_nil _).symm

theorem ledger_step :
    s.step.world.ledger = s.world.ledger.enter s.lends (s.restores ++ s.rejects) := by
  unfold step
  split
  · rename_i hcontrol
    simp only [restores, hcontrol, List.nil_append]
    exact ledger_run hcontrol
  · rename_i source signal hcontrol
    have hop := operation?_landed hcontrol
    simp only [lends, rejects, hop, Option.toList_none, List.flatMap_nil, List.append_nil]
    cases signal with
    | message message =>
        simp only [restores, hcontrol, Ledger.enter_nil]
        exact ledger_receive source message
    | onTop =>
        simp only [restores, hcontrol, Ledger.enter_nil]
        exact congrArg World.ledger (world_callOnTop source)
    | exit => exact ledger_release hcontrol
    | start record =>
        simp only [restores, hcontrol, Ledger.enter_nil, land, start]
        split <;> simp

end State

end Fibers
