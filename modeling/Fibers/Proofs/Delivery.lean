import Fibers.Proofs.Giveback

/-!
# What a switch delivers

A context that waits to be resumed goes on with one handle: as the result of the call that it waits
in, or as the argument of its body.  The handle tells what has ended the wait.  It names the context
that has resumed this one, or it is what a function has returned that was sent along and has run
here first, or it is empty, since a fiber is over that has named this context in the end.
-/

namespace Fibers

namespace State

variable {s s' t : State} {lost : List ContextId} {c source : ContextId} {f : Closure} {h : Handle}
  {there stack stack' below : List Frame}

/-! ## Going on -/

/-- What waits to be resumed goes on with a handle. -/
inductive GoesOn (s : State) (h : Handle) : State -> Prop where
  /-- The handle is the result of the call that the running context has waited in. -/
  | returned {host : Host} {target : SlotName} {a : Activation} {below : List Frame} :
      s.stack = .calling (.resume host none target) a :: below ->
        GoesOn s h
          { s with
            world := s.world.note a.label (.resumed h)
            stack := .calling (.store [(target, h)] none) a :: below
            control := .run }
  /-- The handle is the argument of the body, which is called now. -/
  | called {record : Record} {body : Closure} :
      s.stack = [.base (.idle record)] -> record.body = some body ->
        GoesOn s h
          { s with
            world := s.world.trace (.dispatching record.lease.name)
            stack := [.code (body.activation h), .base (.busy record.lease)]
            control := .run }

/-- A context goes on with one handle only. -/
theorem GoesOn.unique {h' : Handle} (hon : s.GoesOn h t) (hon' : s.GoesOn h' t) : h = h' := by
  cases hon with
  | returned hstack =>
      generalize ht : State.mk _ _ _ _ _ = next at hon'
      cases hon' with
      | returned hstack' =>
          rw [hstack] at hstack'
          cases hstack'
          cases ht
          rfl
      | called hstack' =>
          rw [hstack] at hstack'
          cases hstack'
  | called hstack hbody =>
      generalize ht : State.mk _ _ _ _ _ = next at hon'
      cases hon' with
      | returned hstack' =>
          rw [hstack] at hstack'
          cases hstack'
      | called hstack' hbody' =>
          rw [hstack] at hstack'
          cases hstack'
          rw [hbody] at hbody'
          cases hbody'
          simp only [State.mk.injEq, List.cons.injEq, Frame.code.injEq, Closure.activation,
            Activation.mk.injEq, Block.mk.injEq, Entry.slot.injEq, true_and, and_true] at ht
          exact ht

/-- A fiber that waits for its body to be wanted still has it. -/
theorem Sound.body_of_idle {record : Record} (hs : s.Sound lost)
    (hstack : s.stack = [.base (.idle record)]) : exists f, record.body = some f := by
  rcases hs.stands.stacked with hstacked | ⟨hunborn, -⟩
  · rw [hstack] at hstacked
    rcases hstacked.2.1 with ⟨f, hbody, -⟩
    exact ⟨f, hbody⟩
  · rw [hunborn] at hstack
    cases hstack

theorem Sound.goesOn {message : Message} (hs : s.Sound lost)
    (hcontrol : s.control = .landed source (.message message)) (hrest : AtRest s.stack)
    (hhandle : message.handle? source = some h) :
    exists r, s.step = .active r ∧ s.GoesOn h r := by
  rcases hrest with ⟨record, hstack⟩ | ⟨host, target, a, below, hstack⟩
  · rcases hs.body_of_idle hstack with ⟨body, hbody⟩
    refine ⟨_, ?_, .called hstack hbody⟩
    cases message with
    | handover | farewell =>
        cases hhandle
        simp only [step, hcontrol, land, receive, hstack, callBody, hbody]
        rfl
    | eviction | query => cases hhandle
  · refine ⟨_, ?_, .returned hstack⟩
    cases message with
    | handover | farewell =>
        cases hhandle
        simp only [step, hcontrol, land, receive, hstack]
        rfl
    | eviction | query => cases hhandle

/-! ## Functions on top -/

/-- The sender of a switch has a function that is to run first. -/
def Brings (s : State) (source : ContextId) (f : Closure) : Prop :=
  exists host target a below,
    s.parked? source = some (.calling (.resume host (some f) target) a :: below)

/-- The function on top of some frames is over: it has a result, or has been unwound. -/
inductive Finishes (s : State) (f : Closure) (source : ContextId) (there : List Frame) : Prop where
  | returned {a : Activation} :
      s.control = .run -> s.stack = .code a :: .onTop source :: there -> a.blocks = [] ->
        a.label = f.label -> a.role = .called f.argument -> Finishes s f source there
  | unwound {requester : ContextId} :
      s.control = .run ->
        s.stack = .discarding [] (some (.forced requester)) :: .onTop source :: there ->
        Finishes s f source there

/-- A function is at work on the stack of a context, which is parked below it as it was. -/
def WorksOn (s : State) (f : Closure) (source c : ContextId) (there : List Frame) : Prop :=
  exists stack, s.stackOf c = some stack ∧ Covers f source there stack

theorem not_covers_of_bare (hbare : forall source, .onTop source ∉ stack) :
    ¬ Covers f source there stack := by
  intro hcovers
  rcases hcovers with ⟨above, frame, rfl, -⟩
  exact hbare source (by simp)

theorem Sound.stackOf_step (hs : s.Sound lost) (hstep : s.step = .active s')
    (hstack : s.stackOf c = some stack) (hcovers : Covers f source there stack) :
    exists stack', s'.stackOf c = some stack' := by
  refine hs.stays hstep hstack ?_
  rintro lease rfl
  exact not_covers_of_bare (by simp) hcovers

/-- Only its own end takes a function away from where it is at work. -/
theorem Sound.worksOn_step (hs : s.Sound lost) (hstep : s.step = .active s')
    (hworks : s.WorksOn f source c there) :
    s'.WorksOn f source c there ∨ s.running = c ∧ s.Finishes f source there := by
  rcases hworks with ⟨stack, hstack, hcovers⟩
  rcases hs.stackOf_step hstep hstack hcovers with ⟨stack', hstack'⟩
  rcases hs.alters hstep hstack' with ⟨lease, hmakes, -⟩ | ⟨old, hold, halters⟩
  · rcases hmakes with ⟨spec, captures, moves, body, record, -, -, -, hnone, -⟩
    rw [hstack] at hnone
    cases hnone
  · rw [hstack, Option.some.injEq] at hold
    subst hold
    cases halters with
    | same hkeeps => exact Or.inl ⟨stack', hstack', hkeeps _ _ _ hcovers⟩
    | advances hc hbare => exact absurd hcovers (not_covers_of_bare hbare)
    | ends hc hrun hframe hover =>
        rename_i frame source'
        have htop : s.stack = frame :: .onTop source' :: stack' := by
          rw [hc, stackOf_running, Option.some.injEq] at hstack
          rw [hstack, hframe]
        subst hframe
        by_cases hbelow : .onTop source' :: stack' = .onTop source :: there
        · right
          refine ⟨hc.symm, ?_⟩
          cases hbelow
          have hperforms := hcovers.top
          cases hover with
          | returned hblocks => exact .returned hrun htop hblocks hperforms.1 hperforms.2
          | unwound => exact .unwound hrun htop
        · left
          have hunder := hcovers.under hbelow
          exact ⟨stack', hstack', hunder.pop (fun h => h)⟩

theorem Sound.worksOn_call (hs : s.Sound lost) (hcontrol : s.control = .landed source .onTop) :
    exists f r, s.Brings source f ∧ s.step = .active r ∧ r.running = s.running ∧ r.control = .run ∧
      r.stack = .code (f.activation (.live source)) :: .onTop source :: s.stack := by
  rcases hs.call hcontrol with ⟨host, f, target, a, below, hsource, hmove, -⟩
  have hstep : s.step = .active (s.topped source f
      (.calling (.resume host none target) a :: below)) := by
    simp only [step, hcontrol, land]
    exact hmove
  exact ⟨f, _, ⟨host, target, a, below, hsource⟩, hstep, rfl, rfl, rfl⟩

/-- A function that has come to its end gives its result to what waits below it. -/
theorem Sound.finishes {a : Activation} (hs : s.Sound lost) (hrun : s.control = .run)
    (hstack : s.stack = .code a :: .onTop source :: below) (hblocks : a.blocks = []) :
    exists t r, s.step = .active t ∧ t.running = s.running ∧ t.stack = below ∧
      t.step = .active r ∧ t.GoesOn a.flow.result r := by
  have hstands := hs.stands
  rw [Stands, hrun, hstack] at hstands
  rcases hstands with ⟨⟨-, hneed, hbelow⟩, -⟩
  have hrest : AtRest below := .of_needOf hbelow hneed
  cases hresult : a.flow.result with
  | live next =>
      have hstep : s.step = .active
          { s with stack := below, control := .landed next (.message .handover) } := by
        simp only [step, hrun, run, hstack, runCode, hblocks, give, hresult]
      rcases (hs.move hstep).2.goesOn rfl hrest rfl with ⟨r, hnext, hon⟩
      exact ⟨_, r, hstep, rfl, rfl, hnext, hon⟩
  | empty =>
      have hstep : s.step = .active
          { s with stack := below, control := .landed source (.message .farewell) } := by
        simp only [step, hrun, run, hstack, runCode, hblocks, give, hresult]
      rcases (hs.move hstep).2.goesOn rfl hrest rfl with ⟨r, hnext, hon⟩
      exact ⟨_, r, hstep, rfl, rfl, hnext, hon⟩

/-! ## What has ended a wait -/

/-- The states before tell what has ended the wait of the running context, and with which handle. -/
inductive Sends (s : State) : List State -> Handle -> Prop where
  /-- A context has resumed this one, and waits in the call. -/
  | resumed {u : State} {before : List State} {host : Host} {target : SlotName} {a : Activation}
      {below : List Frame} :
      u.running ≠ s.running ->
        s.parked? u.running = some (.calling (.resume host none target) a :: below) ->
        Sends s (u :: before) (.live u.running)
  /-- A fiber is over whose body has returned a handle to this context. -/
  | exited {u v : State} {before : List State} {lease : Lease} :
      u.releasing? = some v.running -> v.control = .run ->
        v.stack = [.base (.leaving lease (.returned s.running))] ->
        Sends s (u :: v :: before) .empty
  /-- A function has come to its end on top of what waits here. -/
  | returned {u : State} {before : List State} {a : Activation} {source : ContextId} :
      u.running = s.running -> u.control = .run -> u.stack = .code a :: .onTop source :: s.stack ->
        a.blocks = [] -> Sends s (u :: before) a.flow.result

/-- What can be waiting for something else is not waiting to be resumed. -/
theorem AtRest.needOf_eq (hrest : AtRest stack) : needOf stack = some .handle := by
  rcases hrest with ⟨record, rfl⟩ | ⟨host, target, a, below, rfl⟩
  · rfl
  · rfl

theorem Sound.sends {p : Program} {before : List State} {message : Message}
    (hreach : p.Reaches (s :: before) t)
    (hcontrol : t.control = .landed source (.message message)) (hrest : AtRest t.stack)
    (hhandle : message.handle? source = some h) : t.Sends (s :: before) h := by
  rcases hreach.step_of_adjacent with ⟨hbefore, hstep⟩
  have hs := hbefore.sound
  -- Of all that a step can do, few things bring a message to a context that waits to be resumed.
  have hshifts := s.shifts_step
  have hneed := hrest.needOf_eq
  generalize hnext : s.step = next at hshifts
  have hsame := hnext.symm.trans hstep
  cases hshifts with
  | resume =>
      rename_i w host target a below next _
      rcases transfer_eq_active hsame with ⟨there, hthere, hnil, rfl⟩
      cases hcontrol
      cases hhandle
      have hne := hs.ne_running hthere hneed
      have hparked := parked?_hop w (.calling (.resume host none target) a :: below) there
        (.message .handover) hs.listed hthere hne s.running
      rw [if_neg hne.symm, if_pos rfl] at hparked
      exact .resumed hne.symm hparked
  | resumeWith | launch | exit =>
      rcases transfer_eq_active hsame with ⟨there, -, -, rfl⟩
      cases hcontrol
  | probe | abandon =>
      rcases transfer_eq_active hsame with ⟨there, -, -, rfl⟩
      cases hcontrol
      cases hhandle
  | start hstart =>
      rcases transfer_eq_active hsame with ⟨there, hthere, -, rfl⟩
      cases hs.arrives hstart with
      | start hmaker hcreate =>
          rcases hcreate with ⟨slot, a, below, rfl⟩
          rw [hthere, Option.some.injEq] at hmaker
          rw [show State.stack _ = there from rfl, hmaker] at hneed
          cases hneed
  | answer hquery =>
      rcases hs.answer hquery with ⟨query, reply, purpose, a, below, -, hmove, -⟩
      cases hmove.symm.trans hsame
      cases hneed
  | call honTop =>
      rcases hs.call honTop with ⟨host, f, target, a, below, -, hmove, -⟩
      cases hmove.symm.trans hsame
      cases hcontrol
  | release hexit =>
      rcases hs.release hexit with ⟨lease, after, -, hmove, hr, -⟩
      cases hmove.symm.trans hsame
      rw [hr.control] at hcontrol
      cases hcontrol
      cases hhandle
      cases hbefore with
      | start => cases hexit
      | step hearlier hstep' =>
          rename_i past v
          rcases hearlier.sound.bequeaths hstep' hexit hstep with ⟨lease', ending, hbequeaths⟩
          rcases hbequeaths.leaves with ⟨rfl, hrun, hstack⟩
          rcases hbequeaths.arrives with ⟨hrunning, -, hawaits⟩
          rw [hr.stack] at hneed
          cases ending with
          | unwound requester =>
              rcases hawaits with ⟨below, heq⟩
              rw [heq] at hneed
              cases hneed
          | returned next =>
              have hnamed : t.running = next := hr.running.trans hrunning
              rw [<- hnamed] at hstack
              exact .exited (releasing?_iff.mpr hexit) hrun hstack
  | give hrun hstack hblocks hresult =>
      cases hsame
      cases hcontrol
      cases hhandle
      rw [<- hresult]
      exact .returned rfl hrun hstack hblocks
  | giveNothing hrun hstack hblocks hresult =>
      cases hsame
      cases hcontrol
      cases hhandle
      rw [<- hresult]
      exact .returned rfl hrun hstack hblocks
  | redeliver =>
      cases hsame
      cases hcontrol
      cases hhandle
  | go | cleanUp | dispatch | finish | unwound | evict =>
      cases hsame
      cases hcontrol
  | halt => cases hsame

/-- What leaves a context without a handle: the exit of a fiber, or a function without a result. -/
def EmptiedBy (s u : State) : Prop :=
  (exists c, u.releasing? = some c) ∨
    exists a origin, u.control = .run ∧ u.stack = .code a :: .onTop origin :: s.stack ∧
      a.blocks = [] ∧ a.flow.result = .empty

theorem Sound.running_of_emptiedBy {u : State} (hu : u.Sound lost) (hstep : u.step = .active s)
    (hempty : s.EmptiedBy u) : u.running = s.running := by
  rcases hempty with ⟨c, hreleasing⟩ | ⟨a, origin, hrun, hstack, hblocks, hresult⟩
  · have hcontrol := releasing?_iff.mp hreleasing
    rcases hu.release hcontrol with ⟨lease, after, -, hmove, hr, -⟩
    simp only [step, hcontrol, land, hmove] at hstep
    cases hstep
    exact hr.running.symm
  · rcases hu.finishes hrun hstack hblocks with ⟨t, r, hnext, hrunning, -⟩
    cases hnext.symm.trans hstep
    exact hrunning.symm

theorem Sound.empty_iff {u : State} {before : List State} (hu : u.Sound lost)
    (hstep : u.step = .active s) (hsends : s.Sends (u :: before) h) :
    h = .empty ↔ s.EmptiedBy u := by
  constructor
  · intro hempty
    cases hsends with
    | resumed => cases hempty
    | exited hreleasing => exact Or.inl ⟨_, hreleasing⟩
    | returned hrunning hrun hstack hblocks => exact Or.inr ⟨_, _, hrun, hstack, hblocks, hempty⟩
  · intro hemptied
    have hrunning := hu.running_of_emptiedBy hstep hemptied
    cases hsends with
    | resumed hne => exact absurd hrunning hne
    | exited => rfl
    | returned _ hrun hstack =>
        rcases hemptied with ⟨c, hreleasing⟩ | ⟨a, origin, -, hstack', -, hresult⟩
        · rw [releasing?_iff.mp hreleasing] at hrun
          cases hrun
        · rw [hstack] at hstack'
          cases hstack'
          exact hresult

end State

/-! ## Whole runs -/

theorem Program.Reaches.worksOn {p : Program} {past later before : List State} {s t : State}
    {source : ContextId} (h : p.Reaches past s) (hpast : past = later ++ t :: before)
    (hcontrol : t.control = .landed source .onTop) :
    exists f, t.Brings source f ∧
      (s.WorksOn f source t.running t.stack ∨
        exists v, v ∈ later ∧ v.running = t.running ∧ v.Finishes f source t.stack) := by
  induction later generalizing past s with
  | nil =>
      subst hpast
      rcases h.step_of_adjacent with ⟨hbefore, hstep⟩
      rcases hbefore.sound.worksOn_call hcontrol with ⟨f, r, hbrings, hnext, hrunning, -, hstack⟩
      cases hnext.symm.trans hstep
      have hhere : s.stackOf t.running = some s.stack := hrunning ▸ State.stackOf_running
      exact ⟨f, hbrings, Or.inl ⟨_, hhere, hstack ▸ .start⟩⟩
  | cons last later ih =>
      subst hpast
      rcases h.step_of_adjacent with ⟨hbefore, hstep⟩
      rcases ih hbefore rfl with ⟨f, hbrings, hworks | ⟨v, hv, hover⟩⟩
      · refine ⟨f, hbrings, ?_⟩
        rcases hbefore.sound.worksOn_step hstep hworks with hstill | ⟨hrunning, hfinishes⟩
        · exact Or.inl hstill
        · exact Or.inr ⟨last, List.mem_cons_self, hrunning, hfinishes⟩
      · exact ⟨f, hbrings, Or.inr ⟨v, List.mem_cons_of_mem _ hv, hover⟩⟩

/-- What is known, in any state of a run, of the handles that switches deliver. -/
structure State.Delivers (past : List State) (s : State) : Prop where
  /-- Each wait is ended with the handle that its end calls for. -/
  delivered : forall source message h, s.control = .landed source (.message message) ->
    AtRest s.stack -> message.handle? source = some h ->
      s.Sends past h ∧ exists r, s.step = .active r ∧ s.GoesOn h r
  /-- The handle is empty after the exit of a fiber, and after a function with an empty result. -/
  empty : forall source message r, s.control = .landed source (.message message) ->
    AtRest s.stack -> (message.handle? source).isSome = true -> s.step = .active r ->
      (s.GoesOn .empty r ↔ exists u before, past = u :: before ∧ s.EmptiedBy u)
  /-- A function that is sent along is run first, with a handle to its sender. -/
  called : forall source, s.control = .landed source .onTop -> AtRest s.stack ∧
    exists f r, s.Brings source f ∧ s.step = .active r ∧ r.running = s.running ∧
      r.control = .run ∧
        r.stack = .code (f.activation (.live source)) :: .onTop source :: s.stack
  /-- What it runs on top of is left alone until it has come to its end. -/
  works : forall later before t source, past = later ++ t :: before ->
    t.control = .landed source .onTop -> exists f, t.Brings source f ∧
      (s.WorksOn f source t.running t.stack ∨
        exists v, v ∈ later ∧ v.running = t.running ∧ v.Finishes f source t.stack)
  /-- Its result is what is delivered in the end. -/
  finished : forall a source below, s.control = .run ->
    s.stack = .code a :: .onTop source :: below -> a.blocks = [] ->
      exists t r, s.step = .active t ∧ t.running = s.running ∧ t.stack = below ∧
        t.step = .active r ∧ t.GoesOn a.flow.result r
  /-- A fiber that is over leaves no handle to the context that it has named. -/
  exited : forall lease next, s.control = .run ->
    s.stack = [.base (.leaving lease (.returned next))] ->
      exists t u r, s.step = .active t ∧ t.step = .active u ∧ u.running = next ∧
        u.step = .active r ∧ u.GoesOn .empty r

/--
What a context that waits to be resumed goes on with: a handle to who has resumed it, or the result
of the function that was sent along, or an empty handle, if a fiber is over that has named it.
-/
theorem switch_delivers {p : Program} {past : List State} {s : State} (h : p.Reaches past s) :
    s.Delivers past := by
  have hsound := h.sound
  have hdelivered : forall source message handle, s.control = .landed source (.message message) ->
      State.AtRest s.stack -> message.handle? source = some handle ->
        s.Sends past handle ∧ exists r, s.step = .active r ∧ s.GoesOn handle r := by
    intro source message handle hcontrol hrest hhandle
    cases h with
    | start => cases hcontrol
    | step hbefore hstep =>
        refine ⟨?_, hsound.goesOn hcontrol hrest hhandle⟩
        exact State.Sound.sends (.step hbefore hstep) hcontrol hrest hhandle
  constructor
  · exact hdelivered
  · intro source message r hcontrol hrest hsome hnext
    rcases Option.isSome_iff_exists.mp hsome with ⟨handle, hhandle⟩
    rcases hdelivered source message handle hcontrol hrest hhandle with ⟨hsends, r', hnext', hon⟩
    cases hnext'.symm.trans hnext
    cases h with
    | start => cases hcontrol
    | step hbefore hstep =>
        rename_i past u
        have hiff := hbefore.sound.empty_iff hstep hsends
        constructor
        · intro hempty
          exact ⟨u, past, rfl, hiff.mp (hon.unique hempty)⟩
        · intro hemptied
          rcases hemptied with ⟨u', before, heq, hemptied⟩
          cases heq
          exact hiff.mpr hemptied ▸ hon
  · intro source hcontrol
    refine ⟨?_, hsound.worksOn_call hcontrol⟩
    cases hsound.arrives hcontrol with
    | onTop hsource hrest => exact hrest
  · intro later before t source hpast hcontrol
    exact h.worksOn hpast hcontrol
  · intro a source below hrun hstack hblocks
    exact hsound.finishes hrun hstack hblocks
  · intro lease next hrun hstack
    rcases hsound.leaves hrun hstack with ⟨t, u, hstep, hstep', hbequeaths⟩
    rcases hbequeaths.released with ⟨hrunning, hcontrol, hsame, -⟩
    have hrest : State.AtRest u.stack := by
      rw [hsame]
      exact hbequeaths.arrives.2.2
    have hafter := ((hsound.move hstep).2.move hstep').2
    rcases hafter.goesOn hcontrol hrest rfl with ⟨r, hnext, hon⟩
    exact ⟨t, u, r, hstep, hstep', hrunning, hnext, hon⟩

/--
A small program with a function that is run on top of a parked fiber.  It does nothing, so what it
returns is the handle to the main program that it is called with.
-/
def Program.onTopOfFiber : Program where
  hosts := []
  main :=
    [.create ⟨.own "f", "F", none, .heap "A" 4096⟩ [] []
        [.resume ⟨.own "caller", false, none, .own "caller", .keep⟩],
      .resume ⟨.own "f", false, none, .own "f", .keep⟩,
      .resumeWith ⟨.own "f", false, none, .own "f", .keep⟩ [] [] []]

/-- The fiber goes on with that handle. -/
theorem switch_delivers_of_onTopOfFiber :
    exists past s t r, Program.onTopOfFiber.Reaches past s ∧ s.Delivers past ∧
      s.running = 1 ∧ s.step = .active t ∧ t.running = 1 ∧ t.step = .active r ∧
        t.GoesOn (.live mainContext) r := by
  have hafter : exists s a below,
      Config.after 18 (.active Program.onTopOfFiber.start) = .active s ∧ s.running = 1 ∧
        s.control = .run ∧ s.stack = .code a :: .onTop mainContext :: below ∧ a.blocks = [] ∧
          a.flow.result = .live mainContext :=
    ⟨_, _, _, rfl, rfl, rfl, rfl, rfl, rfl⟩
  rcases hafter with ⟨s, a, below, hs, hrunning, hrun, hstack, hblocks, hresult⟩
  rcases Program.after_eq_active.mp hs with ⟨past, -, hreach⟩
  have hdelivers := switch_delivers hreach
  rcases hdelivers.finished _ _ _ hrun hstack hblocks with
    ⟨t, r, hstep, hsame, -, hnext, hon⟩
  rw [hresult] at hon
  exact ⟨past, s, t, r, hreach, hdelivers, hrunning, hstep, hsame.trans hrunning, hnext, hon⟩

end Fibers
