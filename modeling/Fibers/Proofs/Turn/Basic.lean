import Fibers.Proofs.Discipline
import Fibers.Proofs.Globals

/-!
# What a step can do

A run takes steps of eight kinds.  In most the running context goes on by itself, with another world
and another stack.  In the others control passes between contexts: by a switch, by the answer to a
probe, into a new fiber, or on top of a parked context, whose sender is left without its function
or, if it is over, without its stack.

Each kind comes with all that is known of it: how what is held moves, which rules the new stack
obeys, and what becomes of calls, leases and code.  Invariants are proved from this list, and do not
look at single operations.
-/

namespace Fibers

/-! ## Books -/

def LogEntry.guard? : LogEntry -> Option String
  | dropped label _ => some label
  | _ => none

/-- What the world knows of stacks and guards. -/
structure Books where
  registry : Registry
  address : ContextId -> Nat
  guards : Int
  lent : Int
  /-- The guards dropped so far, the latest first. -/
  dropped : List String

def World.books (w : World) : Books where
  registry := w.registry
  address := w.address
  guards := w.liveGuards
  lent := w.liveStacks
  dropped := w.log.filterMap LogEntry.guard?

namespace World

variable {w : World}

/-- The books tell which kind of stack each context is on. -/
theorem kindOf_of_books {w' : World} (h : w'.books = w.books) (c : ContextId) :
    w'.kindOf c = w.kindOf c := by
  have hregistry : w'.registry = w.registry := congrArg Books.registry h
  have haddress : w'.address = w.address := congrArg Books.address h
  rw [kindOf, kindOf, hregistry, haddress]

@[simp] theorem books_note (label : String) (n : Note) : (w.note label n).books = w.books := rfl

@[simp] theorem books_trace (e : TraceEvent) : (w.trace e).books = w.books := rfl

@[simp] theorem books_report_ended : (w.report .ended).books = w.books := rfl

@[simp] theorem books_report_allocated (label : String) (k : StackKind) :
    (w.report (.allocated label k)).books = w.books := rfl

@[simp] theorem books_report_deallocated (label : String) (k : StackKind) :
    (w.report (.deallocated label k)).books = w.books := rfl

@[simp] theorem books_setCell (name : String) (value : UInt64) :
    (w.setCell name value).books = w.books := rfl

@[simp] theorem books_take (name : String) : (w.take name).2.books = w.books := by
  cases hx : exchangeShared name .empty w.globals <;> simp [take, hx, books]

@[simp] theorem books_put (name : String) (h : Handle) : (w.put name h).2.books = w.books := by
  cases hx : exchangeShared name h w.globals <;> simp [put, hx, books]

@[simp] theorem memory_take (name : String) : (w.take name).2.memory = w.memory := by
  cases hx : exchangeShared name .empty w.globals <;> simp [take, hx]

@[simp] theorem memory_put (name : String) (h : Handle) : (w.put name h).2.memory = w.memory := by
  cases hx : exchangeShared name h w.globals <;> simp [put, hx]

end World

namespace State

/-! ## Events -/

def operation? (s : State) : Option Op :=
  match s.control, s.stack with
  | .run, .code a :: _ =>
      match a.flow, a.blocks with
      | .onward, b :: _ => b.code.head?
      | _, _ => none
  | _, _ => none

def guardsMade (s : State) : List String :=
  match s.operation? with
  | some (.guard label _) => [label]
  | some (.create _ captures _ _) | some (.resumeWith _ captures _ _) => captures
  | _ => []

def guardsDropped (s : State) : List String :=
  match s.control, s.stack with
  | .run, .discarding (.guard label _ :: _) _ :: _ => [label]
  | _, _ => []

/-- The requesters whose forced unwind the next step discards. -/
def swallows (s : State) : List ContextId :=
  match s.control, s.stack with
  | .run, .discarding [] (some (.forced requester)) :: .code a :: _ =>
      match a.flow.result, a.blocks with
      | .empty, ⟨.attempt true, _, []⟩ :: _ => [requester]
      | _, _ => []
  | _, _ => []

/-- The resume calls that the next step ends, by their places. -/
def callsEnded (s : State) : List Nat :=
  match s.control, s.stack with
  | .landed _ (.message .handover), .calling (.resume _ _ _) _ :: below
  | .landed _ (.message .farewell), .calling (.resume _ _ _) _ :: below
  | .landed _ (.message .eviction), .calling (.resume _ _ _) _ :: below => [below.length]
  | _, _ => []

/-- What the next step makes. -/
def made (s : State) : List Holding := s.guardsMade.map Holding.guard

/-- What the next step does away with. -/
def gone (s : State) : List Holding :=
  s.guardsDropped.map Holding.guard ++ s.swallows.map (Holding.token .request)

def Books.adjust (b : Books) (made dropped : List String) : Books :=
  { b with guards := b.guards + made.length - dropped.length, dropped := dropped ++ b.dropped }

/-- The books after the next step, unless stacks come or go. -/
def booksAfter (s : State) : Books := Books.adjust s.world.books s.guardsMade s.guardsDropped

/-! A step that takes in a switch does no operation, and drops and discards nothing. -/

section Landed

variable {s : State} {source : ContextId} {signal : Signal}
  (hcontrol : s.control = .landed source signal)

include hcontrol

theorem operation?_landed : s.operation? = none := by simp only [operation?, hcontrol]

theorem guardsMade_landed : s.guardsMade = [] := by
  rw [guardsMade, operation?_landed hcontrol]

theorem guardsDropped_landed : s.guardsDropped = [] := by simp only [guardsDropped, hcontrol]

theorem swallows_landed : s.swallows = [] := by simp only [State.swallows, hcontrol]

theorem made_landed : s.made = [] := by
  rw [made, guardsMade_landed hcontrol]
  rfl

theorem gone_landed : s.gone = [] := by
  rw [gone, guardsDropped_landed hcontrol, swallows_landed hcontrol]
  rfl

end Landed

/-! ## Kinds of steps -/

/-- The running context goes on, or what lies under a function that was on top of it does. -/
structure Steady (s s' : State) : Prop where
  running : s'.running = s.running
  contexts : s'.contexts = s.contexts
  memory : s.world.memory.next ≤ s'.world.memory.next
  books : s'.world.books = s.booksAfter
  balance : forall x, s'.pool.count x + s.gone.count x = s.pool.count x + s.made.count x
  stands : s'.Stands
  tidy : Tidy s.world s.stack -> Tidy s'.world s'.stack
  lease : s'.lease? = s.lease?
  calls : openCalls s.stack = s.callsEnded ++ openCalls s'.stack
  obeys : forall d, s.ObeysNow d -> s'.ObeysNow d

/-- The running context can be parked with a stack, having let go of some holding. -/
structure Parks (s : State) (w : World) (stack : List Frame) (released : List Holding) :
    Prop where
  balance : forall x,
    w.holdings.count x + (stackHoldings stack).count x + released.count x =
      s.pool.count x + s.made.count x
  stacked : Stacked (homeOf s.running) stack
  once : s.world.NamesOnce -> w.NamesOnce
  lease : leaseOf stack = s.lease?
  calls : openCalls s.stack <:+ openCalls stack
  obeys : forall d, s.ObeysNow d -> d.allowsStack stack = true
  quiet : s.gone = [] ∧ s.callsEnded = []

/-- The running context lets another one go on, for whose need it has a token. -/
structure Departs (s : State) (w : World) (stack : List Frame) (need : Need) (target : ContextId)
    (signal : Signal) : Prop extends Parks s w stack [.token need target] where
  memory : s.world.memory.next ≤ w.memory.next
  books : w.books = s.booksAfter
  returns : exists own, needOf stack = some own ∧
    signal.holdings s.running = [.token own s.running]
  lands : forall k there, needOf there = some need -> Stacked k there -> Lands k signal there

/-- The running context makes a fiber, with a new number, on a stack that is apart from all others. -/
structure Launches (s : State) (w : World) (stack : List Frame) (fiber : ContextId)
    (record : Record) : Prop extends Parks s w stack record.holdings where
  memory : s.world.memory.next ≤ fiber ∧ fiber < w.memory.next
  page : pageSize ≤ record.lease.stack.bottom
  apart : forall r, r ∈ s.world.registry.ranges -> r.Apart record.lease.stack
  placed : record.lease.stack.contains (w.address fiber)
  registry : w.registry = s.world.registry.insert record.lease.stack
  address : forall c, c ≠ fiber -> w.address c = s.world.address c
  guards : w.liveGuards = s.world.liveGuards + s.guardsMade.length
  lent : w.liveStacks = s.world.liveStacks + if record.lease.owner.isSome then 1 else 0
  dropped : w.books.dropped = s.world.books.dropped
  waits : needOf stack = some .birth
  formed : record.Formed
  obeysBody : forall d, s.ObeysNow d -> record.body.toList.all d.allowsClosure = true

/-- How the run ends with the next step: it is over, or something has gone wrong. -/
inductive Ends (s : State) : Outcome -> Prop where
  /-- No round is left, or the last one has found nothing. -/
  | drained {rounds : Nat} {found : Bool} {panic : Option Payload} {below : List Frame} :
      s.control = .run -> s.stack = .root (.draining rounds [] found panic) :: below ->
        (found = true -> rounds = 0) -> Ends s (panic.elim .finished .panicked)
  /-- An unwind leaves something that is dropped as a part of another. -/
  | doubleUnwind {cause earlier : Unwind} {entries : List Entry} {below : List Frame} :
      s.control = .run ->
        s.stack = .discarding [] (some cause) :: .discarding entries (some earlier) :: below ->
        Ends s (.aborted .doubleUnwind)
  | bodyPanicked {payload : Payload} {lease : Lease} {below : List Frame} :
      s.control = .run ->
        s.stack = .discarding [] (some (.panic payload)) :: .base (.busy lease) :: below ->
        Ends s (.aborted (.violation (.bodyPanicked payload)))
  | onTopPanicked {payload : Payload} {source : ContextId} {below : List Frame} :
      s.control = .run ->
        s.stack = .discarding [] (some (.panic payload)) :: .onTop source :: below ->
        Ends s (.aborted (.violation (.onTopPanicked payload)))
  /-- A body comes to its end without a context to go on with. -/
  | emptyResult {a : Activation} {lease : Lease} {below : List Frame} :
      s.control = .run -> s.stack = .code a :: .base (.busy lease) :: below ->
        Ends s (.aborted (.violation .emptyResult))
  /-- The main program's context is abandoned. -/
  | nativeStackUnwound {source : ContextId} :
      s.control = .landed source (.message .eviction) -> s.kind = .native ->
        Ends s (.aborted (.violation .nativeStackUnwound))

end State

/-- A state and what its next step makes of it. -/
inductive State.Turn (s : State) : Config -> Prop where
  | stay {s' : State} : s.Steady s' -> Turn s (.active s')
  | switch {w : World} {stack : List Frame} {target : ContextId} {signal : Signal} (need : Need) :
      s.Departs w stack need target signal -> Turn s (s.transfer w stack target signal)
  | answer {prober : ContextId} {binding : Affinity} :
      s.control = .landed prober (.message .query) -> Turn s (s.answer prober binding)
  | launch {w : World} {stack : List Frame} {fiber : ContextId} {record : Record} :
      s.Launches w stack fiber record ->
        Turn s ({ s with contexts := (fiber, [.base .unborn]) :: s.contexts }.transfer w stack fiber
          (.start (some record)))
  | call {source : ContextId} : s.control = .landed source .onTop -> Turn s (s.callOnTop source)
  | release {source : ContextId} : s.control = .landed source .exit -> Turn s (s.release source)
  | halt {outcome : Outcome} : s.Ends outcome -> Turn s (.halted outcome s.world)

end Fibers
