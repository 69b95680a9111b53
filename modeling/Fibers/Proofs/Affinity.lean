import Fibers.Proofs.Giveback
import Fibers.Proofs.Weight.Whole

/-!
# Affinity follows from the past

No state says what a parked context is bound to.  The answer comes from the frame that it is parked
in, and that frame was put there by the last thing that the context did of its own: it was parked for
the first time, or it made a resume call.  Answering probes does not count.  So neither those who ask,
nor those who are refused, nor what other contexts do has a part in it.
-/

namespace Fibers

namespace State

variable {s s' u : State} {lost : List ContextId} {past before : List State} {c : ContextId}
  {stack stack' : List Frame}

/-! ## Turns and calls -/

/-- A context runs here, and not just to answer a probe. -/
def Acts (s : State) (c : ContextId) : Prop :=
  s.running = c ∧ forall prober, s.control ≠ .landed prober (.message .query)

/--
The next step departs in a resume call: that of the next operation, or one that was checked.  The
probe for the check was the operation of two states before.
-/
inductive Calls (s : State) : List State -> SwitchSpec -> Prop where
  | plain {before : List State} {switch : SwitchSpec} :
      s.operation? = some (.resume switch) -> switch.checked = false -> Calls s before switch
  | carrying {before : List State} {switch : SwitchSpec} {captures : List String}
      {moves : List SlotName} {onTop : List Op} :
      s.operation? = some (.resumeWith switch captures moves onTop) -> switch.checked = false ->
        Calls s before switch
  | checked {answerer asker : State} {before : List State} {switch : SwitchSpec}
      {onTop : Option Closure} :
      asker.running = s.running -> asker.Probes (.check switch onTop) ->
        Calls s (answerer :: asker :: before) switch

/--
The next step parks the running context so that it can be resumed: a fiber for the first time, or
code in a resume call.
-/
inductive Rests (s : State) (before : List State) : List Frame -> Prop where
  | started {maker : ContextId} {record : Option Record} (r : Record) (below : List Frame) :
      s.control = .landed maker (.start record) -> Rests s before (.base (.idle r) :: below)
  | called {switch : SwitchSpec} (onTop : Option Closure) (a : Activation) (below : List Frame) :
      s.Calls before switch ->
        Rests s before
          (.calling (.resume (s.world.hosts.resolve switch.host) onTop switch.target) a :: below)

/-- The last thing that a context has done of its own was to park with a stack. -/
def RestsSince (past : List State) (c : ContextId) (stack : List Frame) : Prop :=
  exists later u before, past = later ++ u :: before ∧ u.Acts c ∧ (forall v, v ∈ later -> ¬ v.Acts c) ∧
    u.Rests before stack

/-- What others do leaves the last turn of a context what it was. -/
theorem RestsSince.cons (h : RestsSince past c stack) (hidle : ¬ s.Acts c) :
    RestsSince (s :: past) c stack := by
  rcases h with ⟨later, u, before, rfl, hacts, hlater, hrests⟩
  refine ⟨s :: later, u, before, rfl, hacts, ?_, hrests⟩
  intro v hv
  rcases List.mem_cons.mp hv with rfl | hmem
  · exact hidle
  · exact hlater v hmem

theorem RestsSince.touched (h : RestsSince past c stack) (htouches : s.Touches c stack stack') :
    RestsSince past c stack' := by
  cases htouches with
  | none => exact h
  | reply reply hcontrol =>
      rcases h with ⟨later, u, before, -, -, -, hrests⟩
      cases hrests
  | function hcontrol =>
      rcases h with ⟨later, u, before, hpast, hacts, hlater, hrests⟩
      cases hrests with
      | called onTop a below hcalls =>
          exact ⟨later, u, before, hpast, hacts, hlater, .called _ _ _ hcalls⟩

/-- Waiting in front of a body, or in a resume call. -/
def Resumable : List Frame -> Prop
  | .base (.idle _) :: _ | .calling (.resume _ _ _) _ :: _ => True
  | _ => False

theorem Touches.resumable (h : s.Touches c stack stack') (hresumable : Resumable stack') :
    Resumable stack := by
  cases h with
  | none => exact hresumable
  | reply reply hcontrol => exact hresumable
  | function hcontrol => trivial

/-! ## Checked calls -/

/-- A reply has been put where it is by a context that was asked. -/
theorem Sound.answered {source : ContextId} {query : Query} {reply : Reply}
    {purpose : ProbePurpose} {a : Activation} {below : List Frame} (h : s.Sound lost)
    (hstep : s.step = .active s') (hcontrol : s'.control = .landed source (.message .handover))
    (hstack : s'.stack = .calling (.probe query (some reply) purpose) a :: below) :
    s.control = .landed s'.running (.message .query) ∧
      s.parked? s'.running = some (.calling (.probe query none purpose) a :: below) := by
  have hshifts := s.shifts_step
  -- No context is parked with a reply, so it has not come with a switch in earnest.
  have hunparked : forall {w : World} {parked : List Frame} {target : ContextId} {signal : Signal},
      s.transfer w parked target signal ≠ .active s' := by
    intro w parked target signal htransfer
    rcases transfer_eq_active htransfer with ⟨there, hthere, hnil, rfl⟩
    have hne : target ≠ s.running := by
      rintro rfl
      rw [h.listed] at hthere
      cases hthere
      exact hnil rfl
    apply (h.parked target there hne hthere).2
    rw [show there = _ from hstack]
    rfl
  generalize hnext : s.step = next at hshifts
  have hsame := hnext.symm.trans hstep
  cases hshifts with
  | go | cleanUp | dispatch | finish | unwound | evict | giveNothing | redeliver =>
      cases hsame
      cases hcontrol
  | resume | resumeWith | probe | abandon | exit | start => exact absurd hsame hunparked
  | launch hop howner hretains =>
      rcases transfer_eq_active (s := s.grown _) hsame with ⟨there, -, -, rfl⟩
      cases hcontrol
  | give hrun hcode hblocks hresult =>
      cases hsame
      have hstands := h.stands
      dsimp only at hstack
      rw [Stands, hrun, hcode, hstack] at hstands
      rcases hstands with ⟨⟨-, hneed, -⟩, -⟩
      cases hneed
  | answer hqueried =>
      rcases h.answer hqueried with ⟨query', reply', purpose', a', below', hprober, hmove, -⟩
      rw [hmove] at hsame
      cases hsame
      cases hstack
      exact ⟨hqueried, hprober⟩
  | call hcalled =>
      rcases h.call hcalled with ⟨host, f, target, a', below', hsource, hmove, -⟩
      rw [hmove] at hsame
      cases hsame
      cases hcontrol
  | release hexit =>
      rcases h.release hexit with ⟨lease, after, hsource, hmove, hr, -⟩
      rw [hmove] at hsame
      cases hsame
      rw [hr.control] at hcontrol
      cases hcontrol
  | halt => cases hsame

/-- A query has come from a probe. -/
theorem Sound.probed {prober : ContextId} {query : Query} {purpose : ProbePurpose} {a : Activation}
    {below : List Frame} (h : s.Sound lost) (hstep : s.step = .active s')
    (hcontrol : s'.control = .landed prober (.message .query))
    (hprober : s'.stackOf prober = some (.calling (.probe query none purpose) a :: below)) :
    s.running = prober ∧ s.Probes purpose := by
  have hspends := spends_step (Nat.zero_le 100) h.stands
  have hleft : forall {w : World} {parked : List Frame} {target : ContextId} {signal : Signal},
      s.transfer w parked target signal = .active s' ->
        s.running = prober ∧ signal = .message .query ∧
          parked = .calling (.probe query none purpose) a :: below := by
    intro w parked target signal htransfer
    have hstack := h.stackOf_transfer htransfer s.running
    rcases transfer_eq_active htransfer with ⟨there, -, -, rfl⟩
    cases hcontrol
    rw [if_pos rfl] at hstack
    exact ⟨rfl, rfl, Option.some.inj (hstack.symm.trans hprober)⟩
  generalize hnext : s.step = next at hspends
  have hsame := hnext.symm.trans hstep
  cases hspends with
  | go | stage | back | settle | round =>
      cases hsame
      cases hcontrol
  | depart | abandon | exit | start =>
      rcases hleft hsame with ⟨-, -, hparked⟩
      cases hparked
  | probe hprobes hspine hafford =>
      rcases hleft hsame with ⟨hrunning, -, hparked⟩
      cases hparked
      exact ⟨hrunning, hprobes⟩
  | launch hop hspine hafford =>
      rcases transfer_eq_active (s := s.grown _) hsame with ⟨there, -, -, rfl⟩
      cases hcontrol
  | lift hrun hmessage hspine hafford =>
      cases hsame
      cases hcontrol
      exact absurd rfl hmessage
  | answer hqueried =>
      rcases h.answer hqueried with ⟨query', reply', purpose', a', below', -, hmove, -⟩
      rw [hmove] at hsame
      cases hsame
      cases hcontrol
  | call hcalled =>
      rcases h.call hcalled with ⟨host, f, target, a', below', hsource, hmove, -⟩
      rw [hmove] at hsame
      cases hsame
      cases hcontrol
  | release hexit =>
      rcases h.release hexit with ⟨lease, after, hsource, hmove, hr, -⟩
      rw [hmove] at hsame
      cases hsame
      rw [hr.control] at hcontrol
      cases hcontrol
  | halt => cases hsame

end State

namespace Program.Reaches

variable {p : Program} {past : List State} {s : State}

/-- A reply was asked for two states before, in the context that it is for. -/
theorem asker {source : ContextId} {query : Query} {reply : Reply} {purpose : ProbePurpose}
    {a : Activation} {below : List Frame} (h : p.Reaches past s)
    (hcontrol : s.control = .landed source (.message .handover))
    (hstack : s.stack = .calling (.probe query (some reply) purpose) a :: below) :
    exists answerer asker before, past = answerer :: asker :: before ∧
      asker.running = s.running ∧ asker.Probes purpose := by
  cases h with
  | start => cases hcontrol
  | step hbefore hstep =>
      rcases hbefore.sound.answered hstep hcontrol hstack with ⟨hqueried, hprober⟩
      have hne := hbefore.sound.ne_running hprober (show needOf _ = some .reply from rfl)
      cases hbefore with
      | start => cases hqueried
      | step hfirst hstep' =>
          rcases hfirst.sound.probed hstep' hqueried ((State.stackOf_of_ne hne).trans hprober) with
            ⟨hrunning, hprobes⟩
          exact ⟨_, _, _, rfl, hrunning, hprobes⟩

/-- A switch in earnest is made by a resume call. -/
theorem calls_of_switch {switch : SwitchSpec} (h : p.Reaches past s)
    (hswitch : s.switch? = some switch) :
    s.Calls past switch := by
  unfold State.switch? at hswitch
  split at hswitch
  · rename_i switch' hop
    split at hswitch
    · cases hswitch
    · rename_i hchecked
      cases hswitch
      exact .plain hop (by simpa using hchecked)
  · rename_i switch' captures moves onTop hop
    split at hswitch
    · cases hswitch
    · rename_i hchecked
      cases hswitch
      exact .carrying hop (by simpa using hchecked)
  · rename_i hop source query binding switch' onTop a below hcontrol hstack
    split at hswitch
    · cases hswitch
      rcases h.asker hcontrol hstack with ⟨answerer, asker, before, rfl, hrunning, hprobes⟩
      exact .checked hrunning hprobes
    · cases hswitch
  · cases hswitch

end Program.Reaches

/-! ## The last turn -/

namespace State

variable {s s' : State} {lost : List ContextId} {past : List State} {c : ContextId}
  {stack stack' : List Frame}

/-- A context that is asked a question is left as it was, and so is its stack. -/
theorem Sound.stackOf_answer {prober : ContextId} (h : s.Sound lost)
    (hcontrol : s.control = .landed prober (.message .query)) (hstep : s.step = .active s') :
    s'.stackOf s.running = some s.stack := by
  have hstands := h.stands
  simp only [Stands, hcontrol] at hstands
  have hrest : AtRest s.stack := .of_needOf hstands.1 hstands.2
  rw [step_of_query hrest hcontrol] at hstep
  exact h.stackOf_of_answer hcontrol hstep

/-- A step that takes a context out of its turn parks it there, if it can be resumed. -/
theorem Sound.rests {p : Program} (hreach : p.Reaches past s) (hstep : s.step = .active s')
    (hacts : s.Acts c)
    (hnot : c ≠ s'.running ∨ exists prober, s'.control = .landed prober (.message .query))
    (hstack : s'.stackOf c = some stack') (hresumable : Resumable stack') :
    s.Rests past stack' := by
  have h := hreach.sound
  rcases hacts with ⟨rfl, hunasked⟩
  have hspends := spends_step (Nat.zero_le 100) h.stands
  have hparked : forall {w : World} {stack : List Frame} {target : ContextId} {signal : Signal},
      s.transfer w stack target signal = .active s' -> stack' = stack := by
    intro w stack target signal htransfer
    rw [h.stackOf_transfer htransfer, if_pos rfl, Option.some.injEq] at hstack
    exact hstack.symm
  have hstays : s'.running = s.running ->
      (forall prober, s'.control ≠ .landed prober (.message .query)) -> False := by
    intro hrunning hcontrol
    rcases hnot with hne | ⟨prober, hqueried⟩
    · exact hne hrunning.symm
    · exact hcontrol prober hqueried
  generalize hnext : s.step = next at hspends
  have hsame := hnext.symm.trans hstep
  cases hspends with
  | go | stage | back | settle | round =>
      cases hsame
      exact False.elim (hstays rfl fun _ => Control.noConfusion)
  | depart hswitch hspine hafford =>
      rw [hparked hsame]
      exact .called _ _ _ (hreach.calls_of_switch hswitch)
  | probe | abandon | exit =>
      rw [hparked hsame] at hresumable
      exact False.elim hresumable
  | launch hop hspine hafford =>
      have hne := ne_running_of_new h.listed (h.new_of_launch hnext hstep)
      rw [h.stackOf_launch hnext hstep hne.symm, if_pos rfl, Option.some.injEq] at hstack
      rw [<- hstack] at hresumable
      exact False.elim hresumable
  | start hcontrol hbase hafford =>
      rw [hparked hsame]
      exact .started _ _ hcontrol
  | lift hrun hmessage hspine hafford =>
      cases hsame
      refine False.elim (hstays rfl ?_)
      intro prober heq
      cases heq
      exact hmessage rfl
  | answer hqueried => exact absurd hqueried (hunasked _)
  | call hcalled =>
      rcases h.call hcalled with ⟨host, f, target, a, below, hsource, hmove, -⟩
      rw [hmove] at hsame
      cases hsame
      exact False.elim (hstays rfl fun _ => Control.noConfusion)
  | release hexit =>
      rcases h.release hexit with ⟨lease, after, hsource, hmove, hr, -⟩
      rw [hmove] at hsame
      cases hsame
      refine False.elim (hstays hr.running ?_)
      intro prober heq
      rw [hr.control] at heq
      cases heq
  | halt => cases hsame

end State

/-- A context that can be resumed has not acted since it was parked there. -/
theorem Program.Reaches.restsSince {p : Program} {past : List State} {s : State} {c : ContextId}
    {stack : List Frame} (h : p.Reaches past s) (hidle : ¬ s.Acts c)
    (hstack : s.stackOf c = some stack) (hresumable : State.Resumable stack) :
    State.RestsSince past c stack := by
  induction h generalizing stack with
  | start =>
      by_cases hc : c = p.start.running
      · exact absurd ⟨hc.symm, fun _ => Control.noConfusion⟩ hidle
      · rw [State.stackOf_of_ne hc] at hstack
        have hlookup : (c == mainContext) = false := by simpa using show c ≠ mainContext from hc
        simp [State.parked?, Program.start, List.lookup_cons, hlookup] at hstack
  | step hbefore hstep ih =>
      rename_i past s s'
      have hsound := hbefore.sound
      by_cases hacts : s.Acts c
      · have hnot : c ≠ s'.running ∨
            exists prober, s'.control = .landed prober (.message .query) := by
          by_cases hc : s'.running = c
          · right
            by_contra hnone
            exact hidle ⟨hc, fun prober heq => hnone ⟨prober, heq⟩⟩
          · exact Or.inl fun heq => hc heq.symm
        exact ⟨[], s, past, rfl, hacts, fun v hv => absurd hv (List.not_mem_nil),
          State.Sound.rests hbefore hstep hacts hnot hstack hresumable⟩
      · apply State.RestsSince.cons ?_ hacts
        by_cases hc : c = s.running
        · subst hc
          obtain ⟨prober, hqueried⟩ : exists prober, s.control = .landed prober (.message .query) := by
            by_contra hnone
            exact hacts ⟨rfl, fun prober heq => hnone ⟨prober, heq⟩⟩
          rw [hsound.stackOf_answer hqueried hstep, Option.some.injEq] at hstack
          subst hstack
          exact ih hacts State.stackOf_running hresumable
        · rcases hsound.touches hstep hc hstack with ⟨-, rfl, -⟩ | ⟨old, hold, htouches⟩
          · exact False.elim hresumable
          · exact (ih hacts hold (htouches.resumable hresumable)).touched htouches

/-! ## Fibers in their idle loop -/

/-- The fiber has not been told to do anything yet. -/
def FiberStage.IsFresh : FiberStage -> Prop
  | unborn | idle _ => True
  | busy _ | leaving _ _ | exited _ => False

theorem Stacked.stageOf_eq_some {stack : List Frame} (h : Stacked .fiber stack) :
    exists stage, stageOf stack = some stage := by
  induction stack with
  | nil => exact False.elim h
  | cons f below ih =>
      cases f with
      | code a | dropping | onTop source => exact ih h.2
      | calling call a => exact ih h.2.2.2
      | discarding entries cause =>
          cases cause with
          | none => exact ih h.2
          | some cause => exact ih h.2.2
      | base stage => exact ⟨stage, rfl⟩
      | root stage => cases h.1

/-- On top of a fresh fiber runs nothing but a function that came from another context. -/
theorem Stacked.eq_of_fresh {k : StackKind} {stack : List Frame} {stage : FiberStage}
    (h : Stacked k stack) (hstage : stageOf stack = some stage) (hfresh : stage.IsFresh)
    (hbare : forall source, .onTop source ∉ stack) : stack = [.base stage] := by
  induction stack with
  | nil => cases hstage
  | cons f below ih =>
      have hbelow : forall source, .onTop source ∉ below :=
        fun source hmem => hbare source (List.mem_cons_of_mem _ hmem)
      cases f with
      | code a =>
          rw [ih h.2 hstage hbelow] at h
          cases stage <;> first | exact False.elim h.1 | exact False.elim hfresh
      | calling call a =>
          rw [ih h.2.2.2 hstage hbelow] at h
          cases stage <;> first | exact False.elim h.2.2.1 | exact False.elim hfresh
      | discarding entries cause =>
          cases cause with
          | none =>
              rw [ih h.2 hstage hbelow] at h
              cases stage <;> first | exact False.elim h.1 | exact False.elim hfresh
          | some cause =>
              rw [ih h.2.2 hstage hbelow] at h
              cases stage <;> first | exact False.elim (h.2.1.elim id id) | exact False.elim hfresh
      | dropping =>
          rw [ih h.2 hstage hbelow] at h
          exact False.elim h.1
      | onTop source => exact absurd List.mem_cons_self (hbare source)
      | base old =>
          rw [h.2.2]
          cases hstage
          rfl
      | root old =>
          rw [h.2] at hstage
          cases hstage

namespace State

variable {s s' : State} {lost : List ContextId} {past : List State} {c : ContextId}
  {stack stack' : List Frame}

/-- The body of the running fiber is called. -/
def CallsBody (s : State) : Prop :=
  exists source message record below, (message = .handover ∨ message = .farewell) ∧
    s.control = .landed source (.message message) ∧ s.stack = .base (.idle record) :: below

/-- The running fiber was not called, and begins to drop what its body has captured. -/
def DropsCaptures (s : State) : Prop :=
  exists source record below,
    s.control = .landed source (.message .eviction) ∧ s.stack = .base (.idle record) :: below

/-- The running fiber leaves its idle loop for good. -/
def LeavesIdle (s : State) : Prop := s.CallsBody ∨ s.DropsCaptures

theorem LeavesIdle.of_message {source : ContextId} {message : Message} {record : Record}
    {below : List Frame} (hcontrol : s.control = .landed source (.message message))
    (hstack : s.stack = .base (.idle record) :: below) (hmessage : message ≠ .query) :
    s.LeavesIdle := by
  cases message with
  | handover => exact Or.inl ⟨source, _, record, below, Or.inl rfl, hcontrol, hstack⟩
  | farewell => exact Or.inl ⟨source, _, record, below, Or.inr rfl, hcontrol, hstack⟩
  | eviction => exact Or.inr ⟨source, record, below, hcontrol, hstack⟩
  | query => exact absurd rfl hmessage

theorem callBody_eq_active {record : Record} {caller : Handle} {below : List Frame}
    (h : s.callBody record caller below = .active s') :
    s'.running = s.running ∧ stageOf s'.stack = some (.busy record.lease) := by
  unfold callBody at h
  split at h
  · cases h
    exact ⟨rfl, rfl⟩
  · cases h

theorem LeavesIdle.stage (h : s.LeavesIdle) (hstep : s.step = .active s') :
    s'.running = s.running ∧ exists stage, stageOf s'.stack = some stage ∧ ¬ stage.IsFresh := by
  rcases h with ⟨source, message, record, below, hmessage, hcontrol, hstack⟩ |
    ⟨source, record, below, hcontrol, hstack⟩
  · rcases hmessage with rfl | rfl
    · simp only [step, hcontrol, land, receive, hstack] at hstep
      rcases callBody_eq_active hstep with ⟨hrunning, hstage⟩
      exact ⟨hrunning, _, hstage, id⟩
    · simp only [step, hcontrol, land, receive, hstack] at hstep
      rcases callBody_eq_active hstep with ⟨hrunning, hstage⟩
      exact ⟨hrunning, _, hstage, id⟩
  · simp only [step, hcontrol, land, receive, hstack] at hstep
    cases hstep
    refine ⟨rfl, .leaving record.lease (.unwound source), ?_, id⟩
    cases Closure.leftover record.body <;> rfl

/-- A fiber is as fresh as it was, unless the step takes it out of its idle loop. -/
theorem Sound.fresh_iff {stage : FiberStage} (h : s.Sound lost) (hstep : s.step = .active s')
    (hold : s.stackOf c = some stack) (halters : s.Alters c stack stack')
    (hstack : s'.stackOf c = some stack') (hstage : stageOf stack' = some stage) :
    exists old, stageOf stack = some old ∧
      (stage.IsFresh ↔ old.IsFresh ∧ (s.running = c -> ¬ s.LeavesIdle)) := by
  have hleaves : s.running = c -> s.LeavesIdle -> ¬ stage.IsFresh := by
    intro hc hidle hfresh
    rcases hidle.stage hstep with ⟨hrunning, other, hother, hstale⟩
    rw [<- hc, <- hrunning, stackOf_running, Option.some.injEq] at hstack
    rw [hstack, hstage, Option.some.injEq] at hother
    exact hstale (hother ▸ hfresh)
  have hsame : stageOf stack = some stage -> exists old, stageOf stack = some old ∧
      (stage.IsFresh ↔ old.IsFresh ∧ (s.running = c -> ¬ s.LeavesIdle)) := by
    intro hkept
    refine ⟨stage, hkept, fun hfresh => ⟨hfresh, ?_⟩, And.left⟩
    exact fun hc hidle => hleaves hc hidle hfresh
  cases halters with
  | same hcovers hkept => exact hsame (hkept.symm.trans hstage)
  | ends hc hrun hframe hover =>
      refine hsame ?_
      rw [hframe]
      cases hover <;> exact hstage
  | advances hc hbare hstage' hadvances =>
      subst hc
      rw [stackOf_running, Option.some.injEq] at hold
      rw [hstage, Option.some.injEq] at hstage'
      subst hstage'
      have hstale : forall old, stageOf s.stack = some old -> ¬ old.IsFresh -> ¬ stage.IsFresh ->
          exists old, stageOf stack = some old ∧
            (stage.IsFresh ↔ old.IsFresh ∧ (s.running = s.running -> ¬ s.LeavesIdle)) := by
        intro old hkept hbefore hafter
        exact ⟨old, hold ▸ hkept, fun hfresh => absurd hfresh hafter,
          fun hfresh => absurd hfresh.1 hbefore⟩
      have hevent : forall old, stageOf s.stack = some old -> s.LeavesIdle -> ¬ stage.IsFresh ->
          exists old, stageOf stack = some old ∧
            (stage.IsFresh ↔ old.IsFresh ∧ (s.running = s.running -> ¬ s.LeavesIdle)) := by
        intro old hkept hidle hafter
        exact ⟨old, hold ▸ hkept, fun hfresh => absurd hfresh hafter,
          fun hfresh => absurd hidle (hfresh.2 rfl)⟩
      cases hadvances with
      | parked hcontrol =>
          have hstands := h.stands
          simp only [Stands, hcontrol] at hstands
          rcases hstands with ⟨-, hunborn, -⟩
          refine ⟨.unborn, by rw [<- hold, hunborn]; rfl, fun _ => ⟨trivial, fun _ hidle => ?_⟩,
            fun _ => trivial⟩
          rcases hidle with ⟨source, message, record, below, -, hlanded, -⟩ |
            ⟨source, record, below, hlanded, -⟩
          · cases hcontrol.symm.trans hlanded
          · cases hcontrol.symm.trans hlanded
      | called hcontrol hbase =>
          rename_i source message record
          refine hevent (.idle record) (by rw [hbase]; rfl) (.of_message hcontrol hbase ?_) id
          rintro rfl
          rw [h.stackOf_answer hcontrol hstep, hbase, Option.some.injEq] at hstack
          rw [<- hstack] at hstage
          cases hstage
      | closed lease hlease hcloses =>
          cases hcloses with
          | returned hrun hcode => exact hstale _ (by rw [hcode]; rfl) id id
          | unwound hrun hunwind => exact hstale _ (by rw [hunwind]; rfl) id id
          | evicted hcontrol hbase =>
              exact hevent _ (by rw [hbase]; rfl) (.of_message hcontrol hbase (by decide)) id
      | left hrun hbase => exact hstale _ (by rw [hbase]; rfl) id id

end State

/-! ## Names that have been used -/

namespace Program.Reaches

variable {p : Program} {past : List State} {s : State} {c : ContextId} {stack : List Frame}

/-- The names of all contexts that have run so far lie below all free memory. -/
theorem lt_next {t : State} (h : p.Reaches past s) (ht : t ∈ s :: past) :
    t.running < s.world.memory.next := by
  induction h with
  | start =>
      cases List.mem_singleton.mp ht
      exact (State.sound_start p).lt_next (mem_contextKeys.mpr ⟨[], rfl⟩)
  | step hbefore hstep ih =>
      rcases List.mem_cons.mp ht with rfl | hearlier
      · have hsound := (hbefore.step hstep).sound
        exact hsound.lt_next (mem_contextKeys.mpr ⟨[], hsound.listed⟩)
      · exact Nat.lt_of_lt_of_le (ih hearlier) (hbefore.sound.move hstep).1.memory_le

/-- A fiber is fresh for as long as it has not left its idle loop. -/
theorem fresh_iff {stage : FiberStage} (h : p.Reaches past s) (hc : c ≠ mainContext)
    (hstack : s.stackOf c = some stack) (hstage : stageOf stack = some stage) :
    stage.IsFresh ↔ forall u, u ∈ past -> u.running = c -> ¬ u.LeavesIdle := by
  induction h generalizing stack stage with
  | start =>
      have hlookup : (c == mainContext) = false := by simpa using hc
      rw [State.stackOf_of_ne (s := p.start) hc] at hstack
      simp [State.parked?, Program.start, List.lookup_cons, hlookup] at hstack
  | step hbefore hstep ih =>
      rename_i past s s'
      have hsound := hbefore.sound
      rcases hsound.alters hstep hstack with ⟨lease, hmakes, rfl⟩ | ⟨old, hold, halters⟩
      · rcases hmakes with ⟨spec, captures, moves, body, record, -, -, -, hnone, -, -⟩
        have hlisted := (hbefore.step hstep).sound.mem_contextKeys_of_stackOf hstack
        have hnew : c ∉ contextKeys s.contexts := by
          intro hmem
          rcases mem_contextKeys.mp hmem with ⟨there, hthere⟩
          by_cases hrunning : c = s.running
          · rw [hrunning, State.stackOf_running] at hnone
            cases hnone
          · rw [State.stackOf_of_ne hrunning] at hnone
            cases hnone.symm.trans hthere
        cases hstage
        refine ⟨fun _ u hu hrunning => ?_, fun _ => trivial⟩
        have hgone := (hsound.move hstep).1.gone (hbefore.lt_next hu) (hrunning ▸ hnew)
        exact absurd (hrunning ▸ hlisted) hgone.2
      · rcases hsound.fresh_iff hstep hold halters hstack hstage with ⟨before, hbeforeStage, hiff⟩
        rw [hiff, ih hold hbeforeStage, List.forall_mem_cons]
        exact And.comm

end Program.Reaches

/-! ## What an affinity tells -/

/--
Nothing has happened to a fiber yet: its body was not called, what that has captured is not being
dropped, and no function from another context is on its stack.
-/
structure State.Untouched (past : List State) (s : State) (c : ContextId) : Prop where
  fiber : c ≠ mainContext
  undispatched : forall u, u ∈ past -> u.running = c -> ¬ u.CallsBody
  intact : forall u, u ∈ past -> u.running = c -> ¬ u.DropsCaptures
  bare : forall stack, s.parked? c = some stack -> forall source, .onTop source ∉ stack

/-- What the past says of the affinity of a context that a handle names. -/
structure State.AffinityTold (past : List State) (s : State) (c : ContextId) : Prop where
  /-- Whoever asks is told the binding, and all else stays as it is. -/
  answered : forall question slot, s.operation? = some (.ask question slot) ->
    s.handleIn slot = .live c ->
      Config.after 5 (.active s) = .active (s.asked question c) ∧
        s.answerTo .affinity c = .affinity (s.bindingOf c)
  /-- A context without a binding is a fiber in its idle loop. -/
  idle : s.bindingOf c = .unbound ↔ exists record, s.parked? c = some [.base (.idle record)]
  untouched : s.bindingOf c = .unbound ↔ s.Untouched past c
  /--
  The last thing that the context has done of its own decides.  It was parked for the first time, or
  it has made a resume call: then it is parked in this call, and bound to the host of the call.
  -/
  decided : exists later u before, past = later ++ u :: before ∧ u.Acts c ∧
    (forall v, v ∈ later -> ¬ v.Acts c) ∧
      ((exists maker record, u.control = .landed maker (.start record)) ∧
          s.bindingOf c = .unbound ∨
        exists switch a below, u.Calls before switch ∧
          s.parked? c = some (.calling
            (.resume (u.world.hosts.resolve switch.host) none switch.target) a :: below) ∧
          s.bindingOf c = .bound (u.world.hosts.resolve switch.host))

/-- The affinity of every context that can be resumed follows from the past of this context. -/
theorem affinity_told {p : Program} {past : List State} {s : State} {c : ContextId}
    (h : p.Reaches past s) (hheld : 0 < s.handlesOf c) : s.AffinityTold past c := by
  have hsound := h.sound
  rcases hsound.parked_of_token hheld with ⟨there, hthere, hneed⟩
  have hc := hsound.ne_running hthere hneed
  have hstacked := (hsound.parked c there hc hthere).1
  have hrest := (hsound.atRest_iff hc hthere).mp hneed
  have hstack : s.stackOf c = some there := (State.stackOf_of_ne hc).trans hthere
  have hbinding : s.bindingOf c = State.bindingIn there := by
    rw [State.bindingOf, hthere]
    rfl
  have hidle : s.bindingOf c = .unbound ↔ exists record, there = [.base (.idle record)] := by
    rw [hbinding]
    rcases hrest with ⟨record, rfl⟩ | ⟨host, target, a, below, rfl⟩
    · exact ⟨fun _ => ⟨record, rfl⟩, fun _ => rfl⟩
    · constructor
      · intro hbound
        cases hbound
      · rintro ⟨record, hbase⟩
        cases hbase
  constructor
  · exact fun question slot hop hlive => ⟨hsound.bounce hop hlive, rfl⟩
  · simpa only [hthere, Option.some.injEq] using hidle
  · rw [hidle]
    constructor
    · rintro ⟨record, rfl⟩
      have hfiber : c ≠ mainContext := by
        rintro rfl
        cases hstacked.1
      have hfresh := (h.fresh_iff hfiber hstack rfl).mp trivial
      refine ⟨hfiber, fun u hu hrunning hcalls => hfresh u hu hrunning (Or.inl hcalls),
        fun u hu hrunning hdrops => hfresh u hu hrunning (Or.inr hdrops), ?_⟩
      intro stack hparked source hmem
      cases hparked.symm.trans hthere
      cases List.mem_singleton.mp hmem
    · intro huntouched
      rw [homeOf, if_neg huntouched.fiber] at hstacked
      rcases hstacked.stageOf_eq_some with ⟨stage, hstage⟩
      have hfresh : stage.IsFresh := by
        rw [h.fresh_iff huntouched.fiber hstack hstage]
        intro u hu hrunning hleaves
        rcases hleaves with hcalls | hdrops
        · exact huntouched.undispatched u hu hrunning hcalls
        · exact huntouched.intact u hu hrunning hdrops
      have hbase := hstacked.eq_of_fresh hstage hfresh (huntouched.bare there hthere)
      rcases hrest with hrest | ⟨host, target, a, below, rfl⟩
      · exact hrest
      · cases hbase
  · have hresumable : State.Resumable there := by
      rcases hrest with ⟨record, rfl⟩ | ⟨host, target, a, below, rfl⟩ <;> trivial
    rcases h.restsSince (fun hacts => hc hacts.1.symm) hstack hresumable with
      ⟨later, u, before, hpast, hacts, hlater, hrests⟩
    refine ⟨later, u, before, hpast, hacts, hlater, ?_⟩
    cases hrests with
    | started record below hcontrol => exact Or.inl ⟨⟨_, _, hcontrol⟩, hbinding⟩
    | called onTop a below hcalls =>
        cases onTop with
        | none => exact Or.inr ⟨_, a, below, hcalls, hthere, hbinding⟩
        | some f => cases hneed

/-- What is parked in a call can be resumed, and is bound to the host that the call was made from. -/
theorem State.Sound.bound_of_parked {s : State} {c : ContextId} {host : Host} {target : SlotName}
    {a : Activation} {below : List Frame} {lost : List ContextId} (h : s.Sound lost)
    (hstack : s.parked? c = some (.calling (.resume host none target) a :: below)) :
    0 < s.handlesOf c ∧ s.bindingOf c = .bound host := by
  have hcount := h.count_token hstack .handle
  have hneed : needOf (.calling (.resume host none target) a :: below) = some .handle := rfl
  rw [State.count_lost_of_ne (by decide), if_pos hneed, Nat.add_zero] at hcount
  constructor
  · exact Nat.lt_of_lt_of_eq Nat.one_pos hcount.symm
  · rw [State.bindingOf, hstack]
    rfl

set_option maxRecDepth 10000 in
/--
A fiber is parked in a call that it has made from the host of the program's own thread, and another one
in a call from a host that was drawn.
-/
theorem affinity_told_of_parkedFiber :
    (exists past s, Program.parkedFiber.Reaches past s ∧ 0 < s.handlesOf 1 ∧
      s.AffinityTold past 1 ∧ s.bindingOf 1 = .bound s.world.hosts.self) ∧
    exists past s, Program.foreignHost.Reaches past s ∧ 0 < s.handlesOf 1 ∧
      s.AffinityTold past 1 ∧ s.bindingOf 1 = .bound (s.world.hosts.find "h") ∧
        s.world.hosts.find "h" ≠ s.world.hosts.self := by
  constructor
  · have hafter : exists s target a below,
        Config.after 11 (.active Program.parkedFiber.start) = .active s ∧
          s.contexts =
            [(1, .calling (.resume s.world.hosts.self none target) a :: below), (mainContext, [])] :=
      ⟨_, _, _, _, rfl, rfl⟩
    rcases hafter with ⟨s, target, a, below, hs, hcontexts⟩
    rcases Program.after_eq_active.mp hs with ⟨past, -, hreach⟩
    have hstack : s.parked? 1 =
        some (.calling (.resume s.world.hosts.self none target) a :: below) := by
      rw [State.parked?, hcontexts, List.lookup_cons_self]
    rcases hreach.sound.bound_of_parked hstack with ⟨hheld, hbinding⟩
    exact ⟨past, s, hreach, hheld, affinity_told hreach hheld, hbinding⟩
  · have hafter : exists s target a below,
        Config.after 11 (.active Program.foreignHost.start) = .active s ∧
          s.contexts = [(1, .calling (.resume (s.world.hosts.find "h") none target) a :: below),
            (mainContext, [])] ∧
          s.world.hosts.find "h" ≠ s.world.hosts.self :=
      ⟨_, _, _, _, rfl, rfl, by decide⟩
    rcases hafter with ⟨s, target, a, below, hs, hcontexts, hforeign⟩
    rcases Program.after_eq_active.mp hs with ⟨past, -, hreach⟩
    have hstack : s.parked? 1 =
        some (.calling (.resume (s.world.hosts.find "h") none target) a :: below) := by
      rw [State.parked?, hcontexts, List.lookup_cons_self]
    rcases hreach.sound.bound_of_parked hstack with ⟨hheld, hbinding⟩
    exact ⟨past, s, hreach, hheld, affinity_told hreach hheld, hbinding, hforeign⟩

end Fibers
