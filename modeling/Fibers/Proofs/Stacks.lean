import Fibers.Proofs.Boundary
import Fibers.Proofs.Shifts

/-!
# What becomes of stacks

What a step does to the running context is told as what it does to any context.  A stack keeps the
functions that are at work on it, and the stage of its fiber, until one of two things happens while
its context runs: the topmost function is over, or the fiber comes to its next stage.
-/

namespace Fibers

namespace State

variable {s s' : State} {lost : List ContextId} {c : ContextId} {stack stack' : List Frame}

/-! ## What can happen to a stack -/

/-- What makes a fiber leave: its body ends with a handle, or an unwind is through with it. -/
inductive Closes (s : State) : Ending -> Prop where
  | returned {a : Activation} {lease : Lease} {next : ContextId} :
      s.control = .run -> s.stack = [.code a, .base (.busy lease)] -> a.blocks = [] ->
        a.flow.result = .live next -> Closes s (.returned next)
  | unwound {lease : Lease} {requester : ContextId} :
      s.control = .run ->
        s.stack = [.discarding [] (some (.forced requester)), .base (.busy lease)] ->
        Closes s (.unwound requester)
  | evicted {record : Record} {requester : ContextId} :
      s.control = .landed requester (.message .eviction) -> s.stack = [.base (.idle record)] ->
        Closes s (.unwound requester)

/-- The running fiber comes to a stage of its life. -/
inductive Advances (s : State) : FiberStage -> Prop where
  | parked {maker : ContextId} {record : Record} :
      s.control = .landed maker (.start (some record)) -> Advances s (.idle record)
  | called {source : ContextId} {message : Message} {record : Record} :
      s.control = .landed source (.message message) -> s.stack = [.base (.idle record)] ->
        Advances s (.busy record.lease)
  | closed {ending : Ending} (lease : Lease) :
      s.lease? = some lease -> s.Closes ending -> Advances s (.leaving lease ending)
  | left {lease : Lease} {ending : Ending} :
      s.control = .run -> s.stack = [.base (.leaving lease ending)] -> Advances s (.exited lease)

/-- A function is over: it has a result, or a forced unwind has gone through it. -/
inductive IsOver : Frame -> Prop where
  | returned {a : Activation} : a.blocks = [] -> IsOver (.code a)
  | unwound {requester : ContextId} : IsOver (.discarding [] (some (.forced requester)))

/-- What a step makes of the stack of some context. -/
inductive Alters (s : State) (c : ContextId) (stack stack' : List Frame) : Prop where
  | same : (forall f source there, Covers f source there stack -> Covers f source there stack') ->
      stageOf stack' = stageOf stack -> Alters s c stack stack'
  | ends {frame : Frame} {source : ContextId} :
      c = s.running -> s.control = .run -> stack = frame :: .onTop source :: stack' ->
        IsOver frame -> Alters s c stack stack'
  | advances {stage : FiberStage} :
      c = s.running -> (forall source, .onTop source ∉ stack) -> stageOf stack' = some stage ->
        s.Advances stage -> Alters s c stack stack'

/-- A step that makes a fiber, which was not there before. -/
def Makes (s s' : State) (c : ContextId) (lease : Lease) : Prop :=
  exists spec captures moves body record,
    s.operation? = some (.create spec captures moves body) ∧
      lease.owner = spec.allocator.label? ∧ record.lease = lease ∧ s.stackOf c = none ∧
      s'.running = c ∧ s'.control = .landed s.running (.start (some record))

theorem stackOf_running : s.stackOf s.running = some s.stack := if_pos rfl

theorem stackOf_of_ne (hc : c ≠ s.running) : s.stackOf c = s.parked? c := if_neg hc

/-- A switch that goes on leads to a context that is parked. -/
theorem transfer_eq_active {w : World} {target : ContextId} {signal : Signal}
    (h : s.transfer w stack target signal = .active s') :
    exists there, s.parked? target = some there ∧ there ≠ [] ∧
      s' = s.hop w stack target there signal := by
  unfold transfer at h
  split at h
  · rename_i top below hthere
    cases h
    exact ⟨_, hthere, List.cons_ne_nil _ _, rfl⟩
  · cases h

theorem stackOf_hop {w : World} {there there' : List Frame} {target : ContextId} {signal : Signal}
    (hlisted : s.parked? s.running = some []) (hthere : s.parked? target = some there)
    (hne : target ≠ s.running) (c : ContextId) :
    (s.hop w stack target there' signal).stackOf c =
      if c = target then some there' else if c = s.running then some stack else s.stackOf c := by
  by_cases hc : c = target
  · subst hc
    rw [if_pos rfl]
    exact stackOf_running
  · have hct : c ≠ (s.hop w stack target there' signal).running := hc
    rw [if_neg hc, stackOf_of_ne hct, parked?_hop w stack there' signal hlisted hthere hne,
      if_neg hc]
    split
    · rfl
    · rename_i hrunning
      exact (stackOf_of_ne hrunning).symm

/-- The running context gets another stack, and all other contexts keep theirs. -/
theorem stackOf_go {w : World} {control : Control} (c : ContextId) :
    State.stackOf { s with world := w, stack := stack, control := control } c =
      if c = s.running then some stack else s.stackOf c := by
  unfold State.stackOf
  split <;> rfl

/-- After a switch the context that is left behind has the stack that it was parked with. -/
theorem Sound.stackOf_transfer {w : World} {target : ContextId} {signal : Signal}
    (h : s.Sound lost) (hstep : s.transfer w stack target signal = .active s') (c : ContextId) :
    s'.stackOf c = if c = s.running then some stack else s.stackOf c := by
  rcases transfer_eq_active hstep with ⟨there, hthere, hnil, rfl⟩
  have hne : target ≠ s.running := by
    intro heq
    rw [heq, h.listed] at hthere
    cases hthere
    exact hnil rfl
  rw [stackOf_hop h.listed hthere hne]
  by_cases hc : c = target
  · subst hc
    rw [if_pos rfl, if_neg hne, stackOf_of_ne hne, hthere]
  · rw [if_neg hc]

/-- The context that answers a probe keeps its stack. -/
theorem Sound.stackOf_of_answer {prober : ContextId} {binding : Affinity} (h : s.Sound lost)
    (hcontrol : s.control = .landed prober (.message .query))
    (hanswer : s.answer prober binding = .active s') : s'.stackOf s.running = some s.stack := by
  rcases h.answer hcontrol with ⟨query, reply, purpose, a, below, hprober, hmove, -⟩
  cases hmove.symm.trans hanswer
  have hne := h.ne_running hprober (show needOf _ = some .reply from rfl)
  rw [stackOf_hop h.listed hprober hne, if_neg hne.symm, if_pos rfl]

/-- A function that a context has come with is put on top of the running stack. -/
theorem Sound.stackOf_of_call {source : ContextId} (h : s.Sound lost)
    (hcontrol : s.control = .landed source .onTop) (hcall : s.callOnTop source = .active s') :
    exists a, s'.stackOf s.running = some (.code a :: .onTop source :: s.stack) := by
  rcases h.call hcontrol with ⟨host, f, target, a, below, -, hmove, -⟩
  cases hmove.symm.trans hcall
  exact ⟨_, if_pos rfl⟩

/-- The context that gives a stack back keeps its own. -/
theorem Sound.stackOf_of_release {source : ContextId} (h : s.Sound lost)
    (hcontrol : s.control = .landed source .exit) (hrelease : s.release source = .active s') :
    s'.stackOf s.running = some s.stack := by
  rcases h.release hcontrol with ⟨lease, after, -, hmove, hr, -⟩
  cases hmove.symm.trans hrelease
  rw [<- hr.running, stackOf_running, hr.stack]

theorem Alters.of_retains (h : Retains stack stack') : s.Alters c stack stack' :=
  .same h.covers h.stage

theorem Alters.refl (stack : List Frame) : s.Alters c stack stack := .of_retains (.refl stack)

/-- Only the running context has got another stack, or none has. -/
theorem Alters.of_running {new : List Frame} (hstack : s'.stackOf c = some stack')
    (hnew : s'.stackOf c = if c = s.running then some new else s.stackOf c)
    (halters : c = s.running -> s.Alters c s.stack new) :
    exists stack, s.stackOf c = some stack ∧ s.Alters c stack stack' := by
  rw [hstack] at hnew
  by_cases hc : c = s.running
  · rw [if_pos hc, Option.some.injEq] at hnew
    subst hc
    exact ⟨s.stack, stackOf_running, hnew ▸ halters rfl⟩
  · rw [if_neg hc] at hnew
    exact ⟨stack', hnew.symm, .refl _⟩

/-- A context whose call has been answered or taken up stays in that call. -/
theorem Alters.of_waiting {other : ContextId} {call call' : Call} {a : Activation}
    {below : List Frame} (hother : s.stackOf other = some (.calling call a :: below))
    (hnew : s'.stackOf c =
      if c = other then some (.calling call' a :: below) else s.stackOf c)
    (hstack : s'.stackOf c = some stack') :
    exists stack, s.stackOf c = some stack ∧ s.Alters c stack stack' := by
  rw [hstack] at hnew
  by_cases hc : c = other
  · rw [if_pos hc, Option.some.injEq] at hnew
    subst hc
    refine ⟨_, hother, hnew ▸ .of_retains (.replace ?_ rfl List.suffix_rfl)⟩
    exact fun _ hperforms => hperforms
  · rw [if_neg hc] at hnew
    exact ⟨stack', hnew.symm, .refl _⟩

/-- The stack of a fiber that is just being made. -/
theorem Sound.makes {spec : FiberSpec} {captures : List String} {moves : List SlotName}
    {body : List Op} {w : World} {waiting : List Frame} {fiber : ContextId} {record : Record}
    (h : s.Sound lost) (hop : s.operation? = some (.create spec captures moves body))
    (howner : record.lease.owner = spec.allocator.label?) (hretains : Retains s.stack waiting)
    (hmove : s.step = (s.grown fiber).transfer w waiting fiber (.start (some record)))
    (hstep : s.step = .active s') (hstack : s'.stackOf c = some stack') :
    s.Makes s' c record.lease ∧ stack' = [.base .unborn] ∨
      exists stack, s.stackOf c = some stack ∧ s.Alters c stack stack' := by
  have hafter := (h.move hstep).2.keys
  rw [hmove] at hstep
  rcases transfer_eq_active hstep with ⟨there, hthere, -, rfl⟩
  have hunborn : there = [.base .unborn] := by
    rw [parked?, grown, List.lookup_cons_self, Option.some.injEq] at hthere
    exact hthere.symm
  have hnew : fiber ∉ contextKeys s.contexts := by
    simp only [State.hop, grown, contextKeys_replaceStack] at hafter
    exact (List.nodup_cons.mp hafter).1
  have hne := ne_running_of_new h.listed hnew
  rw [stackOf_hop (listed_grown h.listed hnew) hthere hne] at hstack
  by_cases hc : c = fiber
  · left
    rw [if_pos hc, hunborn, Option.some.injEq] at hstack
    subst hc
    have hnone : s.stackOf c = none := by
      rw [stackOf_of_ne hne]
      cases hold : s.parked? c with
      | none => rfl
      | some old => exact absurd (mem_contextKeys.mpr ⟨old, hold⟩) hnew
    exact ⟨⟨spec, captures, moves, body, record, hop, howner, rfl, hnone, rfl, rfl⟩, hstack.symm⟩
  · right
    rw [if_neg hc] at hstack
    by_cases hrunning : c = s.running
    · have hgrown : c = (s.grown fiber).running := hrunning
      rw [if_pos hgrown, Option.some.injEq] at hstack
      subst hrunning
      exact ⟨s.stack, stackOf_running, .of_retains (hstack ▸ hretains)⟩
    · have hgrown : c ≠ (s.grown fiber).running := hrunning
      rw [if_neg hgrown, stackOf_of_ne hgrown, parked?_grown hc] at hstack
      exact ⟨stack', (stackOf_of_ne hrunning).trans hstack, .refl _⟩

/-- What a step makes of all stacks that are there after it. -/
theorem Sound.alters (h : s.Sound lost) (hstep : s.step = .active s')
    (hstack : s'.stackOf c = some stack') :
    (exists lease, s.Makes s' c lease ∧ stack' = [.base .unborn]) ∨
      exists stack, s.stackOf c = some stack ∧ s.Alters c stack stack' := by
  have hshifts := s.shifts_step
  have hstands := h.stands
  generalize hnext : s.step = next at hshifts
  have hsame := hnext.symm.trans hstep
  cases hshifts with
  | go hretains =>
      cases hsame
      right
      exact Alters.of_running hstack (stackOf_go c) fun _ => .of_retains hretains
  | cleanUp hcontrol hdrops =>
      cases hsame
      right
      refine Alters.of_running hstack (stackOf_go c) fun _ => ?_
      rw [hdrops]
      refine .same (fun f source there hcovers => .push (hcovers.replace ?_) _) rfl
      exact performs_discarding
  | resume hretains | resumeWith hretains | probe hretains | abandon hretains =>
      right
      exact Alters.of_running hstack (h.stackOf_transfer hsame c) fun _ => .of_retains hretains
  | launch hop howner hretains =>
      rcases h.makes hop howner hretains hnext hstep hstack with hmakes | halters
      · exact Or.inl ⟨_, hmakes⟩
      · exact Or.inr halters
  | exit hcontrol hbase =>
      rename_i w lease ending below
      rw [Stands, hcontrol, hbase] at hstands
      rcases hstands with ⟨⟨-, -, rfl⟩, -⟩
      right
      refine Alters.of_running hstack (h.stackOf_transfer hsame c) fun hc => ?_
      exact .advances hc (by simp [hbase]) rfl (.left hcontrol hbase)
  | give hcontrol hcode hblocks | giveNothing hcontrol hcode hblocks =>
      cases hsame
      right
      refine Alters.of_running hstack (stackOf_go c) fun hc => ?_
      exact .ends hc hcontrol hcode (.returned hblocks)
  | redeliver hcontrol hunwind =>
      cases hsame
      right
      exact Alters.of_running hstack (stackOf_go c) fun hc => .ends hc hcontrol hunwind .unwound
  | answer hcontrol =>
      rename_i prober binding
      right
      rcases h.answer hcontrol with ⟨query, reply, purpose, a, below, hprober, hmove, -⟩
      rw [hmove] at hsame
      cases hsame
      have hne := h.ne_running hprober (show needOf _ = some .reply from rfl)
      have hnew : (s.hop s.world s.stack prober
          (.calling (.probe query (some reply) purpose) a :: below)
          (.message .handover)).stackOf c = _ := stackOf_hop h.listed hprober hne c
      have hsaved : (if c = s.running then some s.stack else s.stackOf c) = s.stackOf c := by
        unfold State.stackOf
        split <;> rfl
      rw [hsaved] at hnew
      exact Alters.of_waiting ((stackOf_of_ne hne).trans hprober) hnew hstack
  | call hcontrol =>
      rename_i source
      right
      rcases h.call hcontrol with ⟨host, f, target, a, below, hsource, hmove, -⟩
      rw [hmove] at hsame
      cases hsame
      have hne := h.ne_running hsource (show needOf _ = some .call from rfl)
      by_cases hc : c = s.running
      · subst hc
        have htopped := hstack.symm.trans (if_pos rfl)
        cases htopped
        refine ⟨s.stack, stackOf_running, .same (fun f source there hcovers => ?_) rfl⟩
        exact (hcovers.push _).push _
      · have hnew := parked?_topped hsource c
        rw [<- stackOf_of_ne hc, <- stackOf_of_ne (s := s.topped source f _) hc] at hnew
        exact Alters.of_waiting ((stackOf_of_ne hne).trans hsource) hnew hstack
  | release hcontrol =>
      rename_i source
      right
      rcases h.release hcontrol with ⟨lease, after, hsource, hmove, hr, -⟩
      rw [hmove] at hsame
      cases hsame
      refine ⟨stack', ?_, .refl _⟩
      by_cases hc : c = s.running
      · subst hc
        rw [stackOf_running, <- hr.stack, <- hstack, <- hr.running, stackOf_running]
      · have hafter : c ≠ s'.running := hr.running ▸ hc
        rw [stackOf_of_ne hafter, hr.parked?] at hstack
        rw [stackOf_of_ne hc]
        split at hstack
        · cases hstack
        · exact hstack
  | start hcontrol hbase =>
      rw [Stands, hcontrol, hbase] at hstands
      rcases hstands with ⟨-, heq, -⟩
      cases heq
      right
      refine Alters.of_running hstack (h.stackOf_transfer hsame c) fun hc => ?_
      exact .advances hc (by simp [hbase]) rfl (.parked hcontrol)
  | dispatch hcontrol hhandle hbase =>
      cases hsame
      have hstacked := hstands.stacked
      rw [hbase] at hstacked
      rcases hstacked with ⟨-, -, rfl⟩ | ⟨heq, -⟩
      · right
        refine Alters.of_running hstack (stackOf_go c) fun hc => ?_
        exact .advances hc (by simp [hbase]) rfl (.called hcontrol hbase)
      · cases heq
  | finish hcontrol hcode hblocks hresult =>
      cases hsame
      rw [Stands, hcontrol, hcode] at hstands
      rcases hstands with ⟨⟨-, -, -, rfl⟩, -⟩
      right
      refine Alters.of_running hstack (stackOf_go c) fun hc => ?_
      have hcloses := Closes.returned hcontrol hcode hblocks hresult
      refine .advances hc (by simp [hcode]) rfl (.closed _ ?_ hcloses)
      simp [lease?, hcontrol, hcode, leaseOf, FiberStage.lease?]
  | unwound hcontrol hunwind =>
      cases hsame
      rw [Stands, hcontrol, hunwind] at hstands
      rcases hstands with ⟨⟨-, -, -, -, rfl⟩, -⟩
      right
      refine Alters.of_running hstack (stackOf_go c) fun hc => ?_
      refine .advances hc (by simp [hunwind]) rfl (.closed _ ?_ (.unwound hcontrol hunwind))
      simp [lease?, hcontrol, hunwind, leaseOf, FiberStage.lease?]
  | evict hcontrol hbase =>
      rename_i requester record below
      cases hsame
      have hstacked := hstands.stacked
      rw [hbase] at hstacked
      rcases hstacked with ⟨-, -, rfl⟩ | ⟨heq, -⟩
      · right
        refine Alters.of_running hstack (stackOf_go c) fun hc => ?_
        refine .advances hc (by simp [hbase]) ?_ (.closed record.lease ?_ (.evicted hcontrol hbase))
        · cases Closure.leftover record.body <;> rfl
        · simp [lease?, hcontrol, hbase, leaseOf, FiberStage.lease?]
      · cases heq
  | halt => cases hsame

/-! ## Stacks of new fibers -/

/-- A fiber that a step makes was not there before. -/
theorem Sound.new_of_launch {w : World} {waiting : List Frame} {fiber : ContextId} {signal : Signal}
    (h : s.Sound lost) (hmove : s.step = (s.grown fiber).transfer w waiting fiber signal)
    (hstep : s.step = .active s') : fiber ∉ contextKeys s.contexts := by
  have hafter := (h.move hstep).2.keys
  rw [hmove] at hstep
  rcases transfer_eq_active hstep with ⟨there, -, -, rfl⟩
  simp only [State.hop, grown, contextKeys_replaceStack] at hafter
  exact (List.nodup_cons.mp hafter).1

/-- Making a fiber parks its maker, and touches no other stack. -/
theorem Sound.stackOf_launch {w : World} {waiting : List Frame} {fiber : ContextId} {signal : Signal}
    (h : s.Sound lost) (hmove : s.step = (s.grown fiber).transfer w waiting fiber signal)
    (hstep : s.step = .active s') (hc : c ≠ fiber) :
    s'.stackOf c = if c = s.running then some waiting else s.stackOf c := by
  have hnew := h.new_of_launch hmove hstep
  have hne := ne_running_of_new h.listed hnew
  rw [hmove] at hstep
  rcases transfer_eq_active hstep with ⟨there, hthere, -, rfl⟩
  rw [stackOf_hop (listed_grown h.listed hnew) hthere hne, if_neg hc]
  change (if c = s.running then _ else _) = _
  split
  · rfl
  · rename_i hrunning
    have hgrown : c ≠ (s.grown fiber).running := hrunning
    rw [stackOf_of_ne hgrown, stackOf_of_ne hrunning, parked?_grown hc]

/-! ## Contexts that do not run -/

theorem Sound.mem_contextKeys_of_stackOf (h : s.Sound lost) (hstack : s.stackOf c = some stack) :
    c ∈ contextKeys s.contexts := by
  by_cases hc : c = s.running
  · exact hc ▸ mem_contextKeys.mpr ⟨[], h.listed⟩
  · rw [stackOf_of_ne hc] at hstack
    exact mem_contextKeys.mpr ⟨stack, hstack⟩

/-- A context is there for as long as its fiber has not left it for good. -/
theorem Sound.stays (h : s.Sound lost) (hstep : s.step = .active s')
    (hstack : s.stackOf c = some stack) (hhere : forall lease, stack ≠ [.base (.exited lease)]) :
    exists stack', s'.stackOf c = some stack' := by
  by_cases hlisted : c ∈ contextKeys s'.contexts
  · by_cases hc : c = s'.running
    · exact ⟨s'.stack, hc ▸ stackOf_running⟩
    · rw [stackOf_of_ne hc]
      exact mem_contextKeys.mp hlisted
  · rcases (h.move hstep).1.kept (h.mem_contextKeys_of_stackOf hstack) hlisted with ⟨lease, hexited⟩
    have hne := h.ne_running hexited (show needOf _ = some .remains from rfl)
    rw [stackOf_of_ne hne, hexited, Option.some.injEq] at hstack
    exact absurd hstack.symm (hhere lease)

/--
What a step makes of the stack of a context that does not run.  It gets the reply to its probe, or
the function is taken that it has sent along, or nothing happens to it.
-/
inductive Touches (s : State) (c : ContextId) : List Frame -> List Frame -> Prop where
  | none (stack : List Frame) : Touches s c stack stack
  | reply {query : Query} {purpose : ProbePurpose} {a : Activation} {below : List Frame}
      (reply : Reply) :
      s.control = .landed c (.message .query) ->
        Touches s c (.calling (.probe query none purpose) a :: below)
          (.calling (.probe query (some reply) purpose) a :: below)
  | function {host : Host} {f : Closure} {target : SlotName} {a : Activation}
      {below : List Frame} :
      s.control = .landed c .onTop ->
        Touches s c (.calling (.resume host (some f) target) a :: below)
          (.calling (.resume host none target) a :: below)

theorem Sound.touches_hop {w : World} {saved there there' : List Frame} {target : ContextId}
    {signal : Signal} (h : s.Sound lost) (hthere : s.parked? target = some there)
    (hne : target ≠ s.running) (hc : c ≠ s.running)
    (hstack : (s.hop w saved target there' signal).stackOf c = some stack')
    (htouches : c = target -> s.Touches c there there') :
    exists stack, s.stackOf c = some stack ∧ s.Touches c stack stack' := by
  rw [stackOf_hop h.listed hthere hne] at hstack
  by_cases htarget : c = target
  · rw [if_pos htarget, Option.some.injEq] at hstack
    subst hstack
    exact ⟨there, by rw [stackOf_of_ne hc, htarget, hthere], htouches htarget⟩
  · rw [if_neg htarget, if_neg hc] at hstack
    exact ⟨stack', hstack, .none stack'⟩

/-- A context that does not run is new after a step, or as good as left alone. -/
theorem Sound.touches (h : s.Sound lost) (hstep : s.step = .active s') (hc : c ≠ s.running)
    (hstack : s'.stackOf c = some stack') :
    (s.stackOf c = none ∧ stack' = [.base .unborn] ∧
        exists record, s'.control = .landed s.running (.start record)) ∨
      exists stack, s.stackOf c = some stack ∧ s.Touches c stack stack' := by
  have hmove := (h.move hstep).1
  cases hmove with
  | stay ht =>
      right
      have hrunning : c ≠ s'.running := ht.running ▸ hc
      rw [stackOf_of_ne hrunning, parked?, ht.contexts] at hstack
      exact ⟨stack', (stackOf_of_ne hc).trans hstack, .none stack'⟩
  | switch need hd hthere hneed =>
      right
      exact h.touches_hop hthere (h.ne_running hthere hneed) hc hstack fun _ => .none _
  | answer reply hcontrol hprober =>
      right
      have hne := h.ne_running hprober (show needOf _ = some .reply from rfl)
      refine h.touches_hop hprober hne hc hstack ?_
      rintro rfl
      exact .reply reply hcontrol
  | launch hl hnew =>
      rename_i w saved fiber record
      have hne := ne_running_of_new h.listed hnew
      have hlaunched : (s.launched w saved fiber record).stackOf c = _ :=
        stackOf_hop (listed_grown h.listed hnew) List.lookup_cons_self hne c
      rw [hlaunched] at hstack
      by_cases hfiber : c = fiber
      · left
        rw [if_pos hfiber, Option.some.injEq] at hstack
        subst hfiber
        refine ⟨?_, hstack.symm, some record, rfl⟩
        rw [stackOf_of_ne hne]
        cases hold : s.parked? c with
        | none => rfl
        | some old => exact absurd (mem_contextKeys.mpr ⟨old, hold⟩) hnew
      · right
        have hgrown : c ≠ (s.grown fiber).running := hc
        rw [if_neg hfiber, if_neg hgrown, stackOf_of_ne hgrown, parked?_grown hfiber] at hstack
        exact ⟨stack', (stackOf_of_ne hc).trans hstack, .none stack'⟩
  | call hcontrol hsource =>
      rename_i source host f target a below
      right
      have htopped : c ≠ (s.topped source f
        (.calling (.resume host none target) a :: below)).running := hc
      rw [stackOf_of_ne htopped, parked?_topped hsource] at hstack
      by_cases hcalled : c = source
      · rw [if_pos hcalled, Option.some.injEq] at hstack
        subst hstack hcalled
        exact ⟨_, (stackOf_of_ne hc).trans hsource, .function hcontrol⟩
      · rw [if_neg hcalled] at hstack
        exact ⟨stack', (stackOf_of_ne hc).trans hstack, .none stack'⟩
  | release hcontrol hsource hr =>
      right
      have hafter : c ≠ s'.running := hr.running ▸ hc
      rw [stackOf_of_ne hafter, hr.parked?] at hstack
      split at hstack
      · cases hstack
      · exact ⟨stack', (stackOf_of_ne hc).trans hstack, .none stack'⟩

end State

end Fibers
