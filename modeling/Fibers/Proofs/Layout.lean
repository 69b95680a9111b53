import Fibers.Proofs.Holdings

/-!
# How stacks are built

The frames of a stack do not come in any order.  What may lie below a frame depends on that frame,
and what may be on top of a stack depends on whether its context runs, has just been switched to, or
is parked.  The rules here say both.  They are local, each about two neighbouring frames, so that a
step that changes the top of a stack has to be checked there only.

Main consequence of the rules: below running code lies a boundary that an unwind cannot pass, or an
unwind that is already under way.
-/

namespace Fibers

/-- The kind of stack that a context has been given. -/
def homeOf (c : ContextId) : StackKind := if c = mainContext then .native else .fiber

/-! ## Parts of frames -/

/-- Whether dropping an entry runs no code. -/
def Entry.isPlain : Entry -> Bool
  | slot _ _ => true
  | guard _ onDrop => onDrop.isEmpty

/-- The query that a probe for this purpose makes. -/
def ProbePurpose.query : ProbePurpose -> Query
  | .question q _ => q.query
  | .check _ _ => .affinity

/-- The query that a reply is an answer to. -/
def Reply.query : Reply -> Query
  | .affinity _ => Query.affinity
  | .stackKind _ => Query.stackKind

/-- A probe makes the query that its purpose asks for, and is given a reply to that. -/
def Call.Formed : Call -> Prop
  | probe query reply purpose => purpose.query = query ∧ forall r, reply = some r -> r.query = query
  | _ => True

/-- A fiber that was not called still has its body, and what that has captured runs no code. -/
def Record.Formed (r : Record) : Prop :=
  exists body, r.body = some body ∧ body.captured.all Entry.isPlain = true

def FiberStage.Formed : FiberStage -> Prop
  | unborn => False
  | idle record => record.Formed
  | busy _ | leaving _ _ | exited _ => True

/-- A native stack is unwound by panics only. -/
def Unwind.MayPass (k : StackKind) : Unwind -> Prop
  | .panic _ => True
  | .forced _ => k = .fiber

/-! ## Neighbouring frames -/

/-- On top lies code, or a call of running code that waits for a drop to be over. -/
def InCode : List Frame -> Prop
  | .code _ :: _ => True
  | .calling (.store _ _) _ :: _ | .calling (.failBuild _) _ :: _
  | .calling (.refuse _ _ _) _ :: _ => True
  | _ => False

/-- What code can run above: whatever takes its result, and what it unwinds into. -/
def CarriesCode : List Frame -> Prop
  | .onTop _ :: _ | .base (.busy _) :: _ | .root .program :: _ => True
  | .discarding _ (some _) :: _ => True
  | .discarding _ none :: below => InCode below
  | _ => False

/-- What some entries can be dropped above without an unwind. -/
def CarriesDrop (entries : List Entry) : List Frame -> Prop
  | .base (.leaving _ (.unwound _)) :: _ | .root .ending :: _ | .root (.draining _ _ true _) :: _ =>
      entries.all Entry.isPlain = true
  | stack => InCode stack

/-- What an unwind can go on into. -/
def CarriesUnwind (stack : List Frame) : Prop := InCode stack ∨ CarriesCode stack

/-- On top lies something that is being dropped. -/
def InDrop : List Frame -> Prop
  | .discarding _ _ :: _ => True
  | _ => False

/-! ## Stacks -/

/-- The frames of a stack of the given kind lie on what they can lie on. -/
def Stacked (k : StackKind) : List Frame -> Prop
  | [] => False
  | .code _ :: below => CarriesCode below ∧ Stacked k below
  | .calling call a :: below =>
      call.Formed ∧ a.flow = .onward ∧ CarriesCode below ∧ Stacked k below
  | .discarding entries none :: below => CarriesDrop entries below ∧ Stacked k below
  | .discarding _ (some cause) :: below =>
      cause.MayPass k ∧ CarriesUnwind below ∧ Stacked k below
  | .dropping :: below => InDrop below ∧ Stacked k below
  | .onTop _ :: below => needOf below = some .handle ∧ Stacked k below
  | .base stage :: below => k = .fiber ∧ stage.Formed ∧ below = []
  | .root _ :: below => k = .native ∧ below = []

/-- A stack on which the topmost frame goes on by itself. -/
def Active : List Frame -> Prop
  | .discarding _ _ :: _ | .base (.leaving _ _) :: _ | .root .ending :: _
  | .root (.draining _ _ _ _) :: _ => True
  | stack => InCode stack

/-- A stack on which a signal can land. -/
def Lands (k : StackKind) : Signal -> List Frame -> Prop
  | .message .handover, stack =>
      Stacked k stack ∧
        match stack with
        | .calling (.probe _ (some _) _) _ :: _ => True
        | _ => needOf stack = some .handle ∨ needOf stack = some .birth
  | .message .farewell, stack | .exit, stack =>
      Stacked k stack ∧ (needOf stack = some .handle ∨ needOf stack = some .request)
  | .message .eviction, stack | .message .query, stack | .onTop, stack =>
      Stacked k stack ∧ needOf stack = some .handle
  | .start record, stack =>
      k = .fiber ∧ stack = [.base .unborn] ∧ exists r, record = some r ∧ r.Formed

/-- The running context has the stack that it should have. -/
def State.Stands (s : State) : Prop :=
  match s.control with
  | .run => Stacked (homeOf s.running) s.stack ∧ Active s.stack
  | .landed _ signal => Lands (homeOf s.running) signal s.stack

/-- Only where a fiber starts does the running context have no proper stack yet. -/
theorem State.Stands.stacked {s : State} (h : s.Stands) :
    Stacked (homeOf s.running) s.stack ∨
      s.stack = [.base .unborn] ∧ exists source r, s.control = .landed source (.start (some r)) := by
  unfold State.Stands at h
  split at h
  · exact Or.inl h.1
  · rename_i source signal hcontrol
    cases signal with
    | message m => cases m <;> exact Or.inl h.1
    | onTop | exit => exact Or.inl h.1
    | start record =>
        rcases h with ⟨-, hstack, r, rfl, -⟩
        exact Or.inr ⟨hstack, source, r, hcontrol⟩

theorem InDrop.active {stack : List Frame} (h : InDrop stack) : Active stack := by
  unfold InDrop at h
  split at h
  · trivial
  · exact False.elim h

theorem Lands.handover {k : StackKind} {stack : List Frame} (hstack : Stacked k stack)
    (hneed : needOf stack = some .handle ∨ needOf stack = some .birth) :
    Lands k (.message .handover) stack := by
  refine ⟨hstack, ?_⟩
  split
  · trivial
  · exact hneed

/-! ### Drops above code -/

theorem InCode.active {stack : List Frame} (h : InCode stack) : Active stack := by
  unfold Active
  split
  all_goals trivial

theorem InCode.carriesDrop {entries : List Entry} {stack : List Frame} (h : InCode stack) :
    CarriesDrop entries stack := by
  unfold CarriesDrop
  split
  all_goals first | exact False.elim h | exact h

theorem Stacked.dropFirst {k : StackKind} {entries : List Entry} {stack : List Frame}
    (hstack : Stacked k stack) (hdrop : CarriesDrop entries stack) :
    Stacked k (Fibers.dropFirst entries stack) := by
  cases entries with
  | nil => exact hstack
  | cons e rest => exact ⟨hdrop, hstack⟩

theorem Active.dropFirst {entries : List Entry} {stack : List Frame} (hstack : Active stack) :
    Active (Fibers.dropFirst entries stack) := by
  cases entries with
  | nil => exact hstack
  | cons e rest => trivial

/-! ## Leases -/

def FiberStage.lease? : FiberStage -> Option Lease
  | unborn => none
  | idle record => some record.lease
  | busy lease | leaving lease _ | exited lease => some lease

/-- The lease of the fiber that a stack belongs to. -/
def leaseOf : List Frame -> Option Lease
  | [] => none
  | .base stage :: _ => stage.lease?
  | _ :: below => leaseOf below

@[simp] theorem leaseOf_dropFirst (entries : List Entry) (stack : List Frame) :
    leaseOf (dropFirst entries stack) = leaseOf stack := by
  cases entries <;> rfl

theorem Stacked.leaseOf_eq_some {stack : List Frame} (h : Stacked .fiber stack) :
    exists l, leaseOf stack = some l := by
  induction stack with
  | nil => exact False.elim h
  | cons f below ih =>
      cases f with
      | code a => exact ih h.2
      | calling call a => exact ih h.2.2.2
      | discarding entries cause =>
          cases cause with
          | none => exact ih h.2
          | some cause => exact ih h.2.2
      | dropping => exact ih h.2
      | onTop source => exact ih h.2
      | base stage =>
          cases stage with
          | unborn => exact False.elim h.2.1
          | idle record => exact ⟨record.lease, rfl⟩
          | busy lease | leaving lease ending | exited lease => exact ⟨lease, rfl⟩
      | root stage => exact absurd h.1 (by decide)

/-- The lease of the running context.  A fiber that starts is only just being told. -/
def State.lease? (s : State) : Option Lease :=
  match s.control with
  | .landed _ (.start record) => record.map Record.lease
  | _ => leaseOf s.stack

/-! ## Open calls -/

def Frame.isResume : Frame -> Bool
  | calling (.resume _ _ _) _ => true
  | _ => false

/-- The places of the open resume calls on a stack: how many frames lie below each. -/
def openCalls : List Frame -> List Nat
  | [] => []
  | f :: below => if f.isResume then below.length :: openCalls below else openCalls below

@[simp] theorem openCalls_dropFirst (entries : List Entry) (stack : List Frame) :
    openCalls (dropFirst entries stack) = openCalls stack := by
  cases entries <;> rfl

end Fibers
