import Fibers.Proofs.Ownership

/-!
# The switching protocol

A signal is taken in at the place where a context is suspended, and not every place can make sense
of every signal.  Here it is said what can arrive where, and from what place it was sent.  In all
states of a run this is kept, so none of the checks that the machine makes of its own switches can
fail.  A run that is aborted has been aborted by what its code has done.
-/

namespace Fibers

/-! ## Breaches -/

/-- Whether a breach is one of the machine's own, which no code should be able to cause. -/
def Violation.isInternal : Violation -> Bool
  | notParkedAfterStart | probeMismatched | probeNotReturned | probeNotAnswered
  | abandonedDidNotTerminate | startedWithoutRecord | terminatedWasResumed | dispatchedTwice
  | onTopRanTwice => true
  | nativeStackUnwound | emptyResult | bodyPanicked _ | onTopPanicked _ => false

/-- What a run can be aborted by, with the text that it is reported with. -/
inductive Abort.Expected : Abort -> Prop where
  | nativeStackUnwound {cause : Abort} :
      cause.message? = some "a thread's native stack cannot be unwound" -> Expected cause
  | emptyResult {cause : Abort} :
      cause.message? = some "fiber body returned an empty handle" -> Expected cause
  | bodyPanicked {cause : Abort} (text : String) :
      cause.message? = some ("fiber body panicked: " ++ text) -> Expected cause
  | onTopPanicked {cause : Abort} (text : String) :
      cause.message? = some ("on-top function panicked: " ++ text) -> Expected cause
  | doubleUnwind {cause : Abort} : cause.message? = none -> Expected cause

namespace State

variable {s : State} {source : ContextId} {lost : List ContextId} {need : Need}

/-! ## What can arrive where -/

/-- Waiting for a new fiber to park for the first time. -/
def InCreate (stack : List Frame) : Prop :=
  exists slot a below, stack = .calling (.create slot) a :: below

/-- Waiting for a probe to come back that was given the reply to its query. -/
def Answered (stack : List Frame) : Prop :=
  exists query reply purpose a below,
    stack = .calling (.probe query (some reply) purpose) a :: below ∧ reply.query = query ∧
      purpose.query = query

/-- What a switch from another context brings to the place that the running one is suspended at. -/
inductive Arrives (s : State) (source : ContextId) : Signal -> Prop where
  /-- Handed over is a context that can be resumed. -/
  | handover {there : List Frame} :
      s.parked? source = some there -> AtRest there ->
        AtRest s.stack ∨ InCreate s.stack ∨ Answered s.stack -> Arrives s source (.message .handover)
  | farewell : AtRest s.stack ∨ InDropOf s.stack -> Arrives s source (.message .farewell)
  /-- An eviction comes from who has abandoned this context, and waits for it to be gone. -/
  | eviction {there : List Frame} :
      s.parked? source = some there -> InDropOf there -> AtRest s.stack ->
        Arrives s source (.message .eviction)
  | query {query : Query} {purpose : ProbePurpose} {a : Activation} {below : List Frame} :
      s.parked? source = some (.calling (.probe query none purpose) a :: below) ->
        purpose.query = query -> AtRest s.stack -> Arrives s source (.message .query)
  /-- The sender still has the function that is to run here. -/
  | onTop {host : Host} {f : Closure} {target : SlotName} {a : Activation} {below : List Frame} :
      s.parked? source = some (.calling (.resume host (some f) target) a :: below) ->
        AtRest s.stack -> Arrives s source .onTop
  | exit {lease : Lease} :
      s.parked? source = some [.base (.exited lease)] -> AtRest s.stack ∨ InDropOf s.stack ->
        Arrives s source .exit
  /-- A fiber starts with a record that still has the body. -/
  | start {there : List Frame} {record : Record} :
      s.parked? source = some there -> InCreate there -> s.stack = [.base .unborn] ->
        record.Formed -> Arrives s source (.start (some record))

section Places

variable {k : StackKind} {stack : List Frame}

theorem needOf_birth (h : needOf stack = some .birth) : InCreate stack := by
  unfold needOf at h
  split at h <;> first | exact ⟨_, _, _, rfl⟩ | cases h

theorem AtRest.of_needOf (hstacked : Stacked k stack) (hneed : needOf stack = some .handle) :
    AtRest stack := by
  rcases needOf_handle hneed with hresume | ⟨record, below, rfl⟩
  · exact Or.inr hresume
  · rcases hstacked with ⟨-, -, rfl⟩
    exact Or.inl ⟨record, rfl⟩

theorem atRest_or_inDropOf (hstacked : Stacked k stack)
    (hneed : needOf stack = some .handle ∨ needOf stack = some .request) :
    AtRest stack ∨ InDropOf stack := by
  rcases hneed with hhandle | hrequest
  · exact Or.inl (.of_needOf hstacked hhandle)
  · exact Or.inr (needOf_request hrequest)

end Places

namespace Sound

/-- The sender of a token is parked where the token says. -/
theorem sender {signal : Signal} (h : s.Sound lost) (need : Need)
    (hcontrol : s.control = .landed source signal)
    (htoken : .token need source ∈ signal.holdings source) :
    exists there, s.parked? source = some there ∧ needOf there = some need ∧
      Stacked (homeOf source) there := by
  have hmem : .token need source ∈ s.holdings := by
    rw [holdings, pool, hcontrol]
    exact List.mem_append_left _ (List.mem_append_right _ htoken)
  rcases h.parked_of_token (List.count_pos_iff.mpr hmem) with ⟨there, hthere, hneed⟩
  exact ⟨there, hthere, hneed, (h.parked _ _ (h.ne_running hthere hneed) hthere).1⟩

/-- All that arrives is what can arrive. -/
theorem arrives {signal : Signal} (h : s.Sound lost) (hcontrol : s.control = .landed source signal) :
    s.Arrives source signal := by
  have hlands := h.stands
  simp only [Stands, hcontrol] at hlands
  cases signal with
  | message m =>
      cases m with
      | handover =>
          rcases h.sender .handle hcontrol (by simp [Signal.holdings]) with
            ⟨there, hthere, hneed, hstacked⟩
          refine .handover hthere (.of_needOf hstacked hneed) ?_
          rcases hlands with ⟨hstack, hplace⟩
          split at hplace
          · rename_i query reply purpose a below heq
            rw [heq] at hstack
            exact Or.inr (Or.inr ⟨query, reply, purpose, a, below, heq, hstack.1.2 _ rfl, hstack.1.1⟩)
          · rcases hplace with hhandle | hbirth
            · exact Or.inl (.of_needOf hstack hhandle)
            · exact Or.inr (Or.inl (needOf_birth hbirth))
      | farewell => exact .farewell (atRest_or_inDropOf hlands.1 hlands.2)
      | eviction =>
          rcases h.sender .request hcontrol (by simp [Signal.holdings]) with
            ⟨there, hthere, hneed, -⟩
          exact .eviction hthere (needOf_request hneed) (.of_needOf hlands.1 hlands.2)
      | query =>
          rcases h.sender .reply hcontrol (by simp [Signal.holdings]) with
            ⟨there, hthere, hneed, hstacked⟩
          rcases needOf_reply hneed with ⟨query, purpose, a, below, rfl⟩
          exact .query hthere hstacked.1.1 (.of_needOf hlands.1 hlands.2)
  | onTop =>
      rcases h.sender .call hcontrol (by simp [Signal.holdings]) with
        ⟨there, hthere, hneed, -⟩
      rcases needOf_call hneed with ⟨host, f, target, a, below, rfl⟩
      exact .onTop hthere (.of_needOf hlands.1 hlands.2)
  | exit =>
      rcases h.sender .remains hcontrol (by simp [Signal.holdings]) with
        ⟨there, hthere, hneed, hstacked⟩
      rcases needOf_remains hneed with ⟨lease, below, rfl⟩
      rcases hstacked with ⟨-, -, rfl⟩
      exact .exit hthere (atRest_or_inDropOf hlands.1 hlands.2)
  | start record =>
      rcases hlands with ⟨-, hstack, r, rfl, hformed⟩
      rcases h.sender .birth hcontrol (by simp [Signal.holdings]) with
        ⟨there, hthere, hneed, -⟩
      exact .start hthere (needOf_birth hneed) hstack hformed

end Sound

/-! ## How runs are aborted -/

theorem Ends.expected {cause : Abort} (h : s.Ends (.aborted cause)) :
    cause.Expected ∧ forall v, cause = .violation v -> v.isInternal = false := by
  generalize houtcome : Outcome.aborted cause = outcome at h
  cases h with
  | drained =>
      rename_i panic _ _ _ _
      cases panic <;> cases houtcome
  | doubleUnwind =>
      cases houtcome
      exact ⟨.doubleUnwind rfl, fun v hv => by cases hv⟩
  | bodyPanicked =>
      cases houtcome
      exact ⟨.bodyPanicked _ rfl, fun v hv => by cases hv; rfl⟩
  | onTopPanicked =>
      cases houtcome
      exact ⟨.onTopPanicked _ rfl, fun v hv => by cases hv; rfl⟩
  | emptyResult =>
      cases houtcome
      exact ⟨.emptyResult rfl, fun v hv => by cases hv; rfl⟩
  | nativeStackUnwound =>
      cases houtcome
      exact ⟨.nativeStackUnwound rfl, fun v hv => by cases hv; rfl⟩

end State

/-- What a run ends with is what the step of one of its states ends with. -/
theorem Program.run_aborted {p : Program} {cause : Abort} (h : p.run.outcome = .aborted cause) :
    exists past s w, p.Reaches past s ∧ s.step = .halted (.aborted cause) w := by
  unfold Program.run at h
  split at h
  · rename_i outcome w hhalted
    rcases Program.after_eq_halted hhalted with ⟨past, s, hreach, hstep⟩
    rw [show outcome = .aborted cause from h] at hstep
    exact ⟨past, s, w, hreach, hstep⟩
  · cases h

/-- A state at which no check of the machine's own fails. -/
structure State.Orderly (s : State) : Prop where
  arrives : forall source signal, s.control = .landed source signal -> s.Arrives source signal
  kept : forall v w, v.isInternal = true -> s.step ≠ .halted (.aborted (.violation v)) w
  ruled : forall w, s.step ≠ .halted .stuck w
  aborted : forall cause w, s.step = .halted (.aborted cause) w -> cause.Expected

theorem State.Sound.orderly {s : State} {lost : List ContextId} (h : s.Sound lost) : s.Orderly where
  arrives := fun _ _ hcontrol => h.arrives hcontrol
  kept := by
    intro v w hinternal hstep
    have hexternal := (h.halts hstep).1.expected.2 v rfl
    rw [hinternal] at hexternal
    cases hexternal
  ruled := by
    intro w hstep
    have hends := (h.halts hstep).1
    generalize houtcome : Outcome.stuck = outcome at hends
    cases hends with
    | drained =>
        rename_i panic _ _ _ _
        cases panic <;> cases houtcome
    | doubleUnwind | bodyPanicked | onTopPanicked | emptyResult | nativeStackUnwound =>
        cases houtcome
  aborted := fun _ _ hstep => (h.halts hstep).1.expected.1

/--
Whatever a program does, each of its switches brings what can be taken in where it arrives.  No
check of the machine's own ever fails, and a run that is aborted says so with one of four texts, or
with none.
-/
theorem protocol_kept (p : Program) :
    (forall past s, p.Reaches past s -> s.Orderly) ∧
      forall cause, p.run.outcome = .aborted cause -> cause.Expected := by
  constructor
  · exact fun past s hreach => hreach.sound.orderly
  · intro cause haborted
    rcases Program.run_aborted haborted with ⟨past, s, w, hreach, hstep⟩
    exact hreach.sound.orderly.aborted cause w hstep

end Fibers
