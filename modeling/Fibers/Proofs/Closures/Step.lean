import Fibers.Proofs.Closures.Keeping

/-!
# Closures in one step

A step hands a closure to a keeper that had none, or it takes the closure of a keeper to use it, or
all keepers have what they had before.
-/

namespace Fibers

namespace State

variable {s s' : State} {lost : List ContextId} {c : ContextId} {k : Keeper} {f : Closure}
  {stack : List Frame}

/-- Only what has been left for good is not there any more. -/
theorem Sound.exited_of_gone (h : s.Sound lost) (hstep : s.step = .active s')
    (hstack : s.stackOf c = some stack) (hgone : s'.stackOf c = none) :
    exists lease, stack = [.base (.exited lease)] := by
  apply Classical.byContradiction
  intro hhere
  rcases h.stays hstep hstack fun lease heq => hhere ⟨lease, heq⟩ with ⟨stack', hstack'⟩
  cases hgone.symm.trans hstack'

/-! ## Functions -/

/-- A context that does not run keeps its function until that is called. -/
theorem Sound.kept_sender_of_ne (h : s.Sound lost) (hstep : s.step = .active s')
    (hc : c ≠ s.running) (hused : s.control ≠ .landed c .onTop) :
    s'.kept (.sender c) = s.kept (.sender c) := by
  simp only [kept]
  cases hstack' : s'.stackOf c with
  | none =>
      cases hstack : s.stackOf c with
      | none => rfl
      | some stack =>
          rcases h.exited_of_gone hstep hstack hstack' with ⟨lease, rfl⟩
          rfl
  | some stack' =>
      rcases h.touches hstep hc hstack' with ⟨hnew, rfl, -⟩ | ⟨stack, hstack, htouches⟩
      · rw [hnew]
        rfl
      · rw [hstack]
        cases htouches with
        | none => rfl
        | reply => rfl
        | function hcontrol => exact absurd hcontrol hused

/-- Where no function is pending and none is made, none is pending after the step. -/
theorem Sound.functionOf_after (h : s.Sound lost) (hstep : s.step = .active s')
    (hnone : functionOf s.stack = none) (hoffers : forall f, ¬ s.Offers f)
    (hstack : s'.stackOf s.running = some stack) : functionOf stack = none := by
  have hafter := (h.move hstep).2
  have hstands := h.stands
  have hshifts := s.shifts_step
  generalize hnext : s.step = next at hshifts
  have hsame := hnext.symm.trans hstep
  cases hshifts with
  | go | cleanUp | dispatch | finish | unwound | evict =>
      cases hsame
      cases hstack.symm.trans stackOf_running
      exact hafter.functionOf_of_run rfl
  | resume | abandon | exit | start =>
      have hparked := h.stackOf_transfer hsame s.running
      rw [if_pos rfl, hstack] at hparked
      cases hparked
      rfl
  | resumeWith hretains hoffer => exact absurd hoffer (hoffers _)
  | probe hretains hoffer =>
      rename_i w query purpose a below next
      have hparked := h.stackOf_transfer hsame s.running
      rw [if_pos rfl, hstack] at hparked
      cases hparked
      cases hfunction : purpose.function? with
      | none => exact hfunction
      | some f => exact absurd (hoffer f hfunction) (hoffers f)
  | launch =>
      have hne := ne_running_of_new h.listed (h.new_of_launch hnext hstep)
      have hparked := h.stackOf_launch hnext hstep hne.symm
      rw [if_pos rfl, hstack] at hparked
      cases hparked
      rfl
  | give hrun hcode | giveNothing hrun hcode =>
      cases hsame
      cases hstack.symm.trans stackOf_running
      rw [Stands, hrun, hcode] at hstands
      rcases hstands with ⟨⟨-, hneed, hbelow⟩, -⟩
      exact functionOf_of_atRest (.of_needOf hbelow hneed)
  | redeliver hrun hunwind =>
      cases hsame
      cases hstack.symm.trans stackOf_running
      rw [Stands, hrun, hunwind] at hstands
      rcases hstands with ⟨⟨-, -, hneed, hbelow⟩, -⟩
      exact functionOf_of_atRest (.of_needOf hbelow hneed)
  | answer hcontrol =>
      cases hstack.symm.trans (h.stackOf_of_answer hcontrol hsame)
      exact hnone
  | call hcontrol =>
      rcases h.stackOf_of_call hcontrol hsame with ⟨a, hcalled⟩
      cases hstack.symm.trans hcalled
      rfl
  | release hcontrol =>
      cases hstack.symm.trans (h.stackOf_of_release hcontrol hsame)
      exact hnone
  | halt => cases hsame

/-- A switch with a function for which there is no context to switch to panics. -/
theorem panics_of_empty {switch : SwitchSpec} {spec : FunctionSpec} {a : Activation}
    {below : List Frame} {g : Closure} {scene : Scene}
    (hop : s.operation? = some (switch.operation (some spec))) (hstack : s.stack = .code a :: below)
    (hmade : ((Scene.mk s.world a.advance).make (some spec)).1 = some g)
    (htaken : ((Scene.mk s.world a.advance).make (some spec)).2.take switch.slot =
      (.empty, scene)) :
    exists verb, s.step = s.panic scene below (emptyHandlePanic verb) g.captured := by
  have hstep := step_of_operation hstack hop
  rw [execute_operation, resume, htaken, hmade] at hstep
  cases hchecked : switch.checked with
  | false =>
      rw [hchecked] at hstep
      exact ⟨"resume", hstep⟩
  | true =>
      rw [hchecked] at hstep
      exact ⟨"probe", hstep⟩

/-- A context that runs has no function to send along after a step, unless it is handed one. -/
theorem Sound.kept_sender_running (h : s.Sound lost) (hstep : s.step = .active s')
    (hnone : functionOf s.stack = none) (hgives : forall f, ¬ s.Gives (.sender s.running) f) :
    s'.kept (.sender s.running) = none := by
  simp only [kept]
  cases hstack' : s'.stackOf s.running with
  | none => rfl
  | some stack' =>
      rw [Option.bind_some]
      by_cases hmakes : exists (switch : SwitchSpec) (spec : FunctionSpec),
          s.operation? = some (switch.operation (some spec))
      · rcases hmakes with ⟨switch, spec, hop⟩
        rcases operation?_eq_some hop with ⟨a, below, b, outer, rest, -, hstack, -⟩
        generalize htaken : ((Scene.mk s.world a.advance).make (some spec)).2.take switch.slot =
          taken
        rcases taken with ⟨handle, scene⟩
        cases handle with
        | live target => exact absurd (.sender hop hstack rfl htaken) (hgives _)
        | empty =>
            rcases panics_of_empty hop hstack rfl htaken with ⟨verb, hpanics⟩
            have hafter := (h.move hstep).2
            cases hpanics.symm.trans hstep
            cases hstack'.symm.trans stackOf_running
            exact hafter.functionOf_of_run rfl
      · refine h.functionOf_after hstep hnone (fun f hoffers => ?_) hstack'
        cases hoffers with
        | made hop =>
            rename_i switch captures moves onTop
            exact hmakes ⟨switch, ⟨captures, moves, onTop⟩, hop⟩
        | kept hcontrol hstack =>
            rw [hstack] at hnone
            cases hnone

/-- A function that is pending stays so when the switch is allowed that it goes along with. -/
theorem Sound.kept_sender_probing (h : s.Sound lost) (hstep : s.step = .active s')
    (hfunction : functionOf s.stack = some f) (huses : ¬ s.Uses (.sender s.running) f) :
    s'.kept (.sender s.running) = some f := by
  have hpending : functionOf s.stack ≠ none := by
    intro hnone
    cases hfunction.symm.trans hnone
  cases hcontrol : s.control with
  | run => exact absurd (h.functionOf_of_run hcontrol) hpending
  | landed source signal =>
      rcases h.functionOf_of_landed hcontrol hpending with ⟨rfl, query, reply, purpose, a, below,
        hstack, hreply, hpurpose⟩
      rw [hstack] at hfunction
      cases purpose with
      | question question slot => cases hfunction
      | check switch onTop =>
          have hkept : onTop = some f := hfunction
          subst hkept
          subst hpurpose
          cases reply with
          | stackKind kind => cases hreply
          | affinity binding =>
              have hallows : binding.allows (s.world.hosts.resolve switch.host) = true := by
                apply Classical.byContradiction
                intro hrefused
                exact huses (Or.inr (.refused hcontrol hstack (Bool.eq_false_iff.mpr hrefused)))
              have hconcludes : s.step = s.depart ⟨s.world, a⟩ below source switch (some f) := by
                simp only [step, hcontrol, land, receive, hstack, conclude, hallows, if_true]
              rw [hconcludes] at hstep
              have hparked := h.stackOf_transfer hstep s.running
              rw [if_pos rfl] at hparked
              rw [kept, hparked]
              rfl

/-- A context has the function that it had, unless it is handed one or uses it. -/
theorem Sound.kept_sender (h : s.Sound lost) (hstep : s.step = .active s')
    (hgives : forall f, ¬ s.Gives (.sender c) f) (huses : forall f, ¬ s.Uses (.sender c) f) :
    s'.kept (.sender c) = s.kept (.sender c) := by
  by_cases hc : c = s.running
  · subst hc
    have hkept : s.kept (.sender s.running) = functionOf s.stack := by
      rw [kept, stackOf_running]
      rfl
    rw [hkept]
    cases hfunction : functionOf s.stack with
    | none => exact h.kept_sender_running hstep hfunction hgives
    | some f => exact h.kept_sender_probing hstep hfunction (huses f)
  · refine h.kept_sender_of_ne hstep hc fun hcontrol => ?_
    cases h.arrives hcontrol with
    | onTop hsource hrest => exact huses _ (Or.inl (.function hcontrol hsource))

/-! ## Bodies -/

/-- Unless its fiber starts, a body is kept in the lowest frame of a stack. -/
theorem kept_fiber
    (hstart : c = s.running -> forall source record, s.control ≠ .landed source (.start record)) :
    s.kept (.fiber c) = (s.stackOf c).bind bodyOf := by
  simp only [kept, stackOf]
  split
  · rename_i hc
    unfold body?
    split
    · rename_i source record hcontrol
      exact absurd hcontrol (hstart hc source record)
    · rfl
  · rfl

theorem kept_fiber_of_message {source : ContextId} {message : Message}
    (hcontrol : s.control = .landed source (.message message)) :
    s.kept (.fiber c) = (s.stackOf c).bind bodyOf := by
  refine kept_fiber fun _ source' record hstart => ?_
  cases hcontrol.symm.trans hstart

/-- A fiber that starts parks with its body. -/
theorem Sound.kept_starting {source : ContextId} {record : Option Record} (h : s.Sound lost)
    (hstep : s.step = .active s') (hcontrol : s.control = .landed source (.start record))
    (c : ContextId) : s'.kept (.fiber c) = s.kept (.fiber c) := by
  cases h.arrives hcontrol with
  | start hmaker hcreate hunborn hformed =>
      rename_i there record
      have hstarts : s.step = s.transfer s.world [.base (.idle record)] source
          (.message .handover) := by
        simp only [step, hcontrol, land, start, hunborn]
      rw [hstarts] at hstep
      have hparked := h.stackOf_transfer hstep c
      rcases transfer_eq_active hstep with ⟨there', -, -, rfl⟩
      rw [kept_fiber (by intro _ source record hcontrol; cases hcontrol), hparked]
      by_cases hc : c = s.running
      · subst hc
        rw [if_pos rfl, kept, if_pos rfl, body?, hcontrol]
        rfl
      · rw [if_neg hc, stackOf_of_ne hc, kept, if_neg hc]

section Create

variable {scene : Scene} {below : List Frame} {spec : FiberSpec} {captures : List String}
  {moves : List SlotName} {body : List Op} {a : Activation}

theorem memory_askForStack (w : World) (name owner : Option String) (kind : StackKind) :
    (w.askForStack name owner kind).memory = w.memory := by
  cases owner <;> rfl

theorem registry_askForStack (w : World) (name owner : Option String) (kind : StackKind) :
    (w.askForStack name owner kind).registry = w.registry := by
  cases owner <;> rfl

/-- A fiber that can be made starts with its body. -/
theorem create_of_home (s : State) (below : List Frame)
    (hhome : spec.home? scene.world = some c) (f : Closure) :
    exists w record, record.body = some f ∧ s.create scene below spec f =
      (s.grown c).transfer w (.calling (.create spec.slot) scene.code :: below) c
        (.start (some record)) := by
  unfold FiberSpec.home? at hhome
  split at hhome
  · rename_i stack memory hsupply
    split at hhome
    · cases hhome
    · rename_i hsize
      cases hhome
      cases hplaced : Placement.onStack stack recordSize with
      | error cause => exact absurd (Placement.onStack_eq_error.mp hplaced).1 hsize
      | ok placement =>
          simp only [create, memory_askForStack, registry_askForStack, hsupply, place, hplaced]
          exact ⟨_, ⟨⟨spec.name, stack, spec.allocator.label?⟩, some f⟩, rfl, rfl⟩
  · cases hhome

/-- If it cannot be made, its body is dropped. -/
theorem create_of_none (s : State) (below : List Frame)
    (hhome : spec.home? scene.world = none) (f : Closure) :
    exists w cause, s.create scene below spec f = s.failBuild ⟨w, scene.code⟩ below f cause := by
  unfold FiberSpec.home? at hhome
  split at hhome
  · rename_i stack memory hsupply
    split at hhome
    · rename_i hsmall
      simp only [create, memory_askForStack, registry_askForStack, hsupply, place,
        Placement.onStack_of_small hsmall]
      exact ⟨_, _, rfl⟩
    · cases hhome
  · rename_i cause hsupply
    simp only [create, memory_askForStack, registry_askForStack, hsupply]
    exact ⟨_, _, rfl⟩

theorem home?_capture (spec : FiberSpec) (scene : Scene) (label : String) (argument : SlotName)
    (captures : List String) (moves : List SlotName) (code : List Op) :
    spec.home? (scene.capture label argument captures moves code).2.world =
      spec.home? scene.world := by
  apply FiberSpec.home?_congr
  · simp only [Scene.capture]
    rw [Scene.world_takeAll]
  · simp only [Scene.capture]
    rw [Scene.world_takeAll]

/-- The closure of an operation that makes a fiber is its body, or is dropped. -/
theorem step_create (hop : s.operation? = some (.create spec captures moves body))
    (hstack : s.stack = .code a :: below) :
    exists f scene, (Scene.mk s.world a.advance).capture spec.label (.own "caller") captures moves
        body = (f, scene) ∧
      match spec.home? s.world with
      | some c => exists w record, record.body = some f ∧ s.step =
          (s.grown c).transfer w (.calling (.create spec.slot) scene.code :: below) c
            (.start (some record))
      | none => exists w cause, s.step = s.failBuild ⟨w, scene.code⟩ below f cause := by
  have hstep := step_of_operation hstack hop
  have hsame := home?_capture spec ⟨s.world, a.advance⟩ spec.label (.own "caller") captures moves
    body
  simp only [execute] at hstep
  generalize (Scene.mk s.world a.advance).capture spec.label (.own "caller") captures moves body =
    captured at hstep hsame
  rcases captured with ⟨f, scene⟩
  refine ⟨f, scene, rfl, ?_⟩
  rw [hstep]
  split
  · rename_i c hhome
    exact create_of_home s below (hsame.trans hhome) f
  · rename_i hhome
    exact create_of_none s below (hsame.trans hhome) f

end Create

/-- What a fiber starts with has been made for it. -/
theorem Sound.gives_of_start {source : ContextId} {record : Option Record} (h : s.Sound lost)
    (hstep : s.step = .active s') (hcontrol : s'.control = .landed source (.start record)) :
    exists f, s.Gives (.fiber s'.running) f ∧ s'.body? = some f := by
  have hshifts := s.shifts_step
  generalize hnext : s.step = next at hshifts
  have hsame := hnext.symm.trans hstep
  cases hshifts with
  | launch hop =>
      rcases operation?_eq_some hop with ⟨a, below, b, outer, rest, -, hstack, -⟩
      rcases step_create hop hstack with ⟨f, scene, hcapture, hcreates⟩
      split at hcreates
      · rename_i c hhome
        rcases hcreates with ⟨w, record', hbody, hmove⟩
        rcases transfer_eq_active (hmove.symm.trans hstep) with ⟨there, -, -, rfl⟩
        exact ⟨f, .fiber hop hstack hcapture hhome, hbody⟩
      · rcases hcreates with ⟨w, cause, hmove⟩
        cases hmove.symm.trans hstep
        cases hcontrol
  | resume | resumeWith | probe | abandon | exit | start =>
      rcases transfer_eq_active hsame with ⟨there, -, -, rfl⟩
      cases hcontrol
  | answer hquery =>
      rcases h.answer hquery with ⟨query, reply, purpose, a, below, -, hmove, -⟩
      cases hmove.symm.trans hsame
      cases hcontrol
  | call honTop =>
      rcases h.call honTop with ⟨host, f, target, a, below, -, hmove, -⟩
      cases hmove.symm.trans hsame
      cases hcontrol
  | release hexit =>
      rcases h.release hexit with ⟨lease, after, -, hmove, hr, -⟩
      cases hmove.symm.trans hsame
      rw [hr.control] at hcontrol
      cases hcontrol
  | go | cleanUp | give | giveNothing | redeliver | dispatch | finish | unwound | evict =>
      cases hsame
      cases hcontrol
  | halt => cases hsame

/-- A fiber that comes to a stage of its life has the same body there, unless it was used. -/
theorem Sound.body?_of_advances {stage : FiberStage} (h : s.Sound lost)
    (hadvances : s.Advances stage) (hstep : s.step = .active s')
    (hstage : (s'.stackOf s.running).bind stageOf = some stage)
    (hstart : forall source record, s.control ≠ .landed source (.start record))
    (huses : forall f, ¬ s.Uses (.fiber s.running) f) : stage.body? = bodyOf s.stack := by
  have hidle : forall source message record, s.control = .landed source (.message message) ->
      s.stack = [.base (.idle record)] -> message = .query := by
    intro source message record hcontrol hstack
    rcases h.body_of_idle hstack with ⟨f, hbody⟩
    cases message with
    | handover | farewell => exact absurd (Or.inl (.body hcontrol rfl hstack hbody)) (huses f)
    | eviction => exact absurd (Or.inr (.evicted hcontrol hstack hbody)) (huses f)
    | query => rfl
  cases hadvances with
  | parked hcontrol => exact absurd hcontrol (hstart _ _)
  | called hcontrol hstack =>
      rename_i source message record
      -- Only the answer to a query leaves the body, and that is no new stage.
      cases hidle _ _ _ hcontrol hstack
      have hanswers : s.step = s.answer source .unbound := by
        simp only [step, hcontrol, land, receive, hstack]
      rw [h.stackOf_of_answer hcontrol (hanswers.symm.trans hstep), hstack] at hstage
      cases hstage
  | closed lease hlease hcloses =>
      cases hcloses with
      | returned hrun hstack => rw [hstack]; rfl
      | unwound hrun hstack => rw [hstack]; rfl
      | evicted hcontrol hstack => cases hidle _ _ _ hcontrol hstack
  | left hrun hstack => rw [hstack]; rfl

/-- A fiber has the body that it had, unless it is handed one or uses it. -/
theorem Sound.kept_body (h : s.Sound lost) (hstep : s.step = .active s')
    (hgives : forall f, ¬ s.Gives (.fiber c) f) (huses : forall f, ¬ s.Uses (.fiber c) f) :
    s'.kept (.fiber c) = s.kept (.fiber c) := by
  by_cases hstarts : exists source record, s.control = .landed source (.start record)
  · rcases hstarts with ⟨source, record, hcontrol⟩
    exact h.kept_starting hstep hcontrol c
  · have hstart : forall source record, s.control ≠ .landed source (.start record) :=
      fun source record hcontrol => hstarts ⟨source, record, hcontrol⟩
    have hstart' : c = s'.running ->
        forall source record, s'.control ≠ .landed source (.start record) := by
      rintro rfl source record hcontrol
      rcases h.gives_of_start hstep hcontrol with ⟨f, hgiven, -⟩
      exact hgives f hgiven
    rw [kept_fiber hstart', kept_fiber fun _ => hstart]
    cases hstack' : s'.stackOf c with
    | none =>
        cases hstack : s.stackOf c with
        | none => rfl
        | some stack =>
            rcases h.exited_of_gone hstep hstack hstack' with ⟨lease, rfl⟩
            rfl
    | some stack' =>
        rcases h.alters hstep hstack' with ⟨lease, hmakes, -⟩ | ⟨stack, hstack, halters⟩
        · rcases hmakes with ⟨spec, captures, moves, body, record, -, -, -, -, hrunning, hcontrol⟩
          exact absurd hcontrol (hstart' hrunning.symm _ _)
        · rw [hstack]
          change (stageOf stack').bind FiberStage.body? = (stageOf stack).bind FiberStage.body?
          cases halters with
          | same hcovers hsame => rw [hsame]
          | ends hc hrun hframe hover =>
              rw [hframe]
              cases hover <;> rfl
          | advances hc hbare hstage hadvances =>
              rename_i stage
              subst hc
              have hstage' : (s'.stackOf s.running).bind stageOf = some stage := by
                rw [hstack']
                exact hstage
              cases hstack.symm.trans stackOf_running
              rw [hstage]
              exact h.body?_of_advances hadvances hstep hstage' hstart huses

/-! ## Bodies and functions that are used -/

/-- What a message does to a fiber before its body was called. -/
theorem step_of_idle {source : ContextId} {message : Message} {record : Record}
    (hcontrol : s.control = .landed source (.message message))
    (hstack : s.stack = [.base (.idle record)]) (hbody : record.body = some f) :
    s.step =
      match message with
      | .handover => s.go (s.world.trace (.dispatching record.lease.name))
          [.code (f.activation (.live source)), .base (.busy record.lease)]
      | .farewell => s.go (s.world.trace (.dispatching record.lease.name))
          [.code (f.activation .empty), .base (.busy record.lease)]
      | .query => s.answer source .unbound
      | .eviction => s.go s.world
          (dropFirst f.captured [.base (.leaving record.lease (.unwound source))]) := by
  cases message with
  | handover | farewell =>
      simp only [step, hcontrol, land, receive, hstack, callBody, hbody]
  | eviction =>
      simp only [step, hcontrol, land, receive, hstack, hbody]
      rfl
  | query => simp only [step, hcontrol, land, receive, hstack]

/-- A switch is refused when its affinity has been told, and its function is dropped. -/
theorem step_of_refused {source : ContextId} {query : Query} {binding : Affinity}
    {switch : SwitchSpec} {a : Activation} {below : List Frame}
    (hcontrol : s.control = .landed source (.message .handover))
    (hstack : s.stack =
      .calling (.probe query (some (.affinity binding)) (.check switch (some f))) a :: below)
    (hrefused : binding.allows (s.world.hosts.resolve switch.host) = false) :
    s.step = s.go (s.world.trace (.refusing (s.world.hosts.resolve switch.host) binding))
      (dropFirst f.captured (.calling (.refuse
        ⟨.live source, binding, s.world.hosts.resolve switch.host⟩ switch.slot switch.onRefusal) a ::
        below)) := by
  simp only [step, hcontrol, land, receive, hstack, conclude, hrefused, Bool.false_eq_true,
    if_false]
  rfl

/-! ## All closures -/

/-- What is handed out is a closure of a keeper that had none. -/
theorem Sound.kept_of_gives (h : s.Sound lost) (hstep : s.step = .active s') (hgives : s.Gives k f) :
    s.kept k = none ∧ s'.kept k = some f := by
  cases hgives with
  | fiber hop hstack hcapture hhome =>
      rcases step_create hop hstack with ⟨f', scene, hcapture', hcreates⟩
      cases hcapture.symm.trans hcapture'
      rw [hhome] at hcreates
      rcases hcreates with ⟨w, record, hbody, hmove⟩
      have hnew := h.new_of_launch hmove hstep
      have hne := ne_running_of_new h.listed hnew
      constructor
      · rw [kept, if_neg hne]
        cases hparked : s.parked? _ with
        | none => rfl
        | some there => exact absurd (mem_contextKeys.mpr ⟨there, hparked⟩) hnew
      · rcases transfer_eq_active (hmove.symm.trans hstep) with ⟨there, -, -, rfl⟩
        exact (if_pos rfl).trans hbody
  | sender hop hstack hmade htaken =>
      rename_i switch spec a below target scene
      have hrun : s.control = .run := by
        rcases operation?_eq_some hop with ⟨-, -, -, -, -, hrun, -⟩
        exact hrun
      have hmove := step_of_operation hstack hop
      rw [execute_operation, resume, htaken, hmade] at hmove
      constructor
      · rw [kept, stackOf_running]
        exact h.functionOf_of_run hrun
      · rw [hmove] at hstep
        cases hchecked : switch.checked with
        | false =>
            rw [hchecked] at hstep
            rw [kept, h.stackOf_transfer hstep, if_pos rfl]
            rfl
        | true =>
            rw [hchecked] at hstep
            rw [kept, h.stackOf_transfer hstep, if_pos rfl]
            rfl

/-- A closure that is called is its keeper's, who does not have it any more. -/
theorem Sound.kept_of_calls (h : s.Sound lost) (hstep : s.step = .active s') (hcalls : s.Invokes k f) :
    s.kept k = some f ∧ s'.kept k = none := by
  cases hcalls with
  | function hcontrol hsource =>
      rename_i source host target a below
      have hne := h.ne_running hsource (show needOf _ = some .call from rfl)
      rcases h.call hcontrol with ⟨host', f', target', a', below', hsource', hmove, -⟩
      cases hsource.symm.trans hsource'
      have hstep' : s.step = s.callOnTop source := by simp only [step, hcontrol, land]
      cases hmove.symm.trans (hstep'.symm.trans hstep)
      constructor
      · rw [kept, stackOf_of_ne hne, hsource]
        rfl
      · have hparked := parked?_topped hsource source
        rw [if_pos rfl] at hparked
        have hne' : source ≠ (s.topped source f
            (.calling (.resume host none target) a :: below)).running := hne
        rw [kept, stackOf_of_ne hne', hparked]
        rfl
  | body hcontrol hhandle hstack hbody =>
      rename_i source message handle record
      have hmove := step_of_idle hcontrol hstack hbody
      constructor
      · rw [kept_fiber_of_message hcontrol, stackOf_running, hstack]
        exact hbody
      · cases message with
        | query | eviction => cases hhandle
        | handover | farewell =>
            cases hmove.symm.trans hstep
            exact if_pos rfl

/-- So is one that is destroyed. -/
theorem Sound.kept_of_destroys (h : s.Sound lost) (hstep : s.step = .active s')
    (hdestroys : s.Destroys k f) : s.kept k = some f ∧ s'.kept k = none := by
  have hafter := (h.move hstep).2
  cases hdestroys with
  | refused hcontrol hstack hrefused =>
      have hmove := step_of_refused hcontrol hstack hrefused
      constructor
      · rw [kept, stackOf_running, hstack]
        rfl
      · cases hmove.symm.trans hstep
        rw [kept, stackOf_running]
        exact hafter.functionOf_of_run rfl
  | evicted hcontrol hstack hbody =>
      have hmove := step_of_idle hcontrol hstack hbody
      constructor
      · rw [kept_fiber_of_message hcontrol, stackOf_running, hstack]
        exact hbody
      · cases hmove.symm.trans hstep
        refine (if_pos rfl).trans ?_
        cases f.captured <;> rfl

theorem Sound.kept_of_uses (h : s.Sound lost) (hstep : s.step = .active s') (huses : s.Uses k f) :
    s.kept k = some f ∧ s'.kept k = none :=
  huses.elim (h.kept_of_calls hstep) (h.kept_of_destroys hstep)

/-- A keeper has what it had, unless it is handed a closure or uses its own. -/
theorem Sound.kept_of_not (h : s.Sound lost) (hstep : s.step = .active s')
    (hgives : forall f, ¬ s.Gives k f) (huses : forall f, ¬ s.Uses k f) : s'.kept k = s.kept k := by
  cases k with
  | fiber c => exact h.kept_body hstep hgives huses
  | sender c => exact h.kept_sender hstep hgives huses

end State

end Fibers
