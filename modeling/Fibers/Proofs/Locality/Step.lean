import Fibers.Proofs.Locality.Code

/-!
# Every step is local

Here the deeds of code that goes on, of calls, drops and unwinds, and of arrivals are put together to
those of whole steps.
-/

namespace Fibers

namespace State

variable {s : State} {scene : Scene} {a : Activation} {below : List Frame}

/-! ## Code -/

theorem does_give (hstack : s.stack = .code a :: below) (result : Handle) :
    s.Does fun base contexts tail => (s.within base contexts tail).give result (below ++ tail) := by
  cases below with
  | nil =>
      refine ⟨.halt .stuck s.world, fun base contexts tail hshields => ?_⟩
      rw [hstack] at hshields
      rw [hshields.elim id False.elim]
      rfl
  | cons frame rest =>
      cases frame with
      | code b | calling call b | dropping => exact Does.halt .stuck
      | discarding entries cause =>
          refine ⟨.go s.world (.discarding (result.entries ++ entries) cause :: rest) .run, ?_⟩
          exact fun _ _ _ _ => rfl
      | onTop source =>
          cases result with
          | live next =>
              exact ⟨.go s.world rest (.landed next (.message .handover)), fun _ _ _ _ => rfl⟩
          | empty =>
              exact ⟨.go s.world rest (.landed source (.message .farewell)), fun _ _ _ _ => rfl⟩
      | base stage =>
          cases stage with
          | busy lease =>
              cases result with
              | live next => exact Does.go s.world (.base (.leaving lease (.returned next)) :: rest)
              | empty => exact Does.halt (.aborted (.violation .emptyResult))
          | unborn | idle record | leaving lease ending | exited lease => exact Does.halt .stuck
      | root stage =>
          cases stage with
          | program => exact Does.drop s.world result.entries (.root .ending :: rest)
          | ending | draining left names found panic => exact Does.halt .stuck

theorem scene_within (base : List LogEntry) (contexts : List (ContextId × List Frame))
    (tail : List Frame) (a : Activation) :
    Scene.mk (s.within base contexts tail).world a = Scene.onto base ⟨s.world, a⟩ := rfl

theorem does_endBlock (b : Block) (outer : List Block) :
    s.Does fun base contexts tail =>
      (s.within base contexts tail).endBlock a b outer (below ++ tail) := by
  have hgo : forall a : Activation, s.Does fun base contexts tail =>
      (s.within base contexts tail).go (s.within base contexts tail).world
        (.code a :: (below ++ tail)) := fun a => Does.go s.world (.code a :: below)
  simp only [State.endBlock]
  cases a.flow with
  | onward =>
      cases b.kind with
      | body | scope | attempt swallow => exact hgo _
      | rounds left code => cases left <;> exact hgo _
      | whileLive slot left code =>
          cases left with
          | zero => exact hgo _
          | succ left =>
              simp only [scene_within, Scene.onto_look, Scene.onto_enter]
              split <;> exact does_proceed _
  | leavingLoop =>
      dsimp only
      split <;> exact hgo _
  | returning result => exact hgo _

theorem does_runCode (hstack : s.stack = .code a :: below) :
    s.Does fun base contexts tail => (s.within base contexts tail).runCode a (below ++ tail) := by
  have hresult : s.Does fun base contexts tail => (s.within base contexts tail).proceed
      ((Scene.mk (s.within base contexts tail).world a).defaultResult.2.flow
        (.returning (Scene.mk (s.within base contexts tail).world a).defaultResult.1))
      (below ++ tail) := by
    simp only [scene_within, Scene.onto_defaultResult, Scene.onto_flow]
    exact does_proceed _
  unfold State.runCode
  split
  · exact does_give hstack a.flow.result
  · rename_i b rest hblocks
    split
    · exact does_execute ⟨s.world, _⟩ _
    · exact hresult
    · exact hresult
    · split
      · rename_i e es hunwanted
        exact Does.go s.world
          (.discarding (e :: es) none :: .code { a with flow := .returning .empty } :: below)
      · exact does_endBlock b _
      · rename_i e es hunwanted hentries
        exact Does.go s.world (.discarding (e :: es) none ::
          .code { a with blocks := { b with code := [], entries := [] } :: _ } :: below)

/-! ## Calls, drops and unwinds -/

theorem does_runCall (call : Call) :
    s.Does fun base contexts tail => (s.within base contexts tail).runCall call a (below ++ tail) := by
  cases call with
  | create slot | probe query reply purpose | resume host onTop target => exact Does.halt .stuck
  | failBuild cause =>
      exact Does.go ((s.world.trace .spanLeft).note a.label (.buildFailed cause)) (.code a :: below)
  | refuse refusal slot onRefusal =>
      let scene := (Scene.mk s.world a).note (.refused refusal)
      cases onRefusal with
      | keep => exact does_store scene [(slot, refusal.handle)] none
      | discard => exact Does.drop scene.world refusal.handle.entries (.code scene.code :: below)
  | store pending note =>
      cases pending with
      | nil =>
          cases note with
          | none => exact Does.go s.world (.code a :: below)
          | some n => exact Does.go (s.world.note a.label n) (.code a :: below)
      | cons entry pending =>
          rcases entry with ⟨slot, h⟩
          simp only [State.runCall, scene_within, Scene.onto_put, Scene.onto_world, Scene.onto_code]
          exact Does.drop _ _ (.calling (.store pending note) _ :: below)

theorem does_unwindCode (cause : Unwind) :
    s.Does fun base contexts tail =>
      (s.within base contexts tail).unwindCode cause a (below ++ tail) := by
  have hraise : forall (w : World) (entries : List Entry) (a : Activation),
      s.Does fun base contexts tail => (s.within base contexts tail).raise (w.onto base) cause entries
        (.code a :: (below ++ tail)) := fun w entries a => Does.raise w cause entries (.code a :: below)
  have hgo : forall (w : World) (a : Activation), s.Does fun base contexts tail =>
      (s.within base contexts tail).go (w.onto base) (.code a :: (below ++ tail)) :=
    fun w a => Does.go w (.code a :: below)
  unfold State.unwindCode
  split
  · exact hraise s.world _ _
  · exact Does.raise s.world cause [] below
  · split
    · exact hraise s.world _ _
    · dsimp only
      split
      · exact hgo (s.world.note _ _) _
      · exact hgo (s.world.note _ _) _
      · exact hraise (s.world.note _ _) [] _
      · exact hraise s.world [] _

theorem does_unwindInto {cause : Unwind} (hstack : s.stack = .discarding [] (some cause) :: below) :
    s.Does fun base contexts tail =>
      (s.within base contexts tail).unwindInto cause (below ++ tail) := by
  cases below with
  | nil =>
      refine ⟨.halt .stuck s.world, fun base contexts tail hshields => ?_⟩
      rw [hstack] at hshields
      rw [hshields.elim id False.elim]
      rfl
  | cons frame rest =>
      cases frame with
      | code a => exact does_unwindCode cause
      | calling call a =>
          cases call with
          | create slot | probe query reply purpose | resume host onTop target =>
              exact Does.halt .stuck
          | failBuild failure =>
              exact Does.raise (s.world.trace .spanLeft) cause [] (.code a :: rest)
          | refuse refusal slot onRefusal =>
              exact Does.raise s.world cause refusal.handle.entries (.code a :: rest)
          | store pending note =>
              exact Does.raise s.world cause (pending.flatMap fun entry => entry.2.entries)
                (.code a :: rest)
      | discarding entries earlier =>
          cases earlier with
          | none => exact Does.raise s.world cause entries rest
          | some earlier => exact Does.halt (.aborted .doubleUnwind)
      | dropping => exact Does.halt .stuck
      | onTop source =>
          cases cause with
          | panic payload => exact Does.halt (.aborted (.violation (.onTopPanicked payload)))
          | forced requester =>
              exact ⟨.go s.world rest (.landed requester (.message .eviction)), fun _ _ _ _ => rfl⟩
      | base stage =>
          cases stage with
          | unborn | idle record | exited lease => exact Does.halt .stuck
          | leaving lease ending => exact Does.halt (.aborted .doubleUnwind)
          | busy lease =>
              cases cause with
              | panic payload => exact Does.halt (.aborted (.violation (.bodyPanicked payload)))
              | forced requester =>
                  exact Does.go s.world (.base (.leaving lease (.unwound requester)) :: rest)
      | root stage =>
          cases cause with
          | panic payload =>
              exact Does.go s.world (.root (.draining drainRounds [] true (some payload)) :: rest)
          | forced requester => exact Does.halt .stuck

theorem does_runDiscarding {entries : List Entry} {cause : Option Unwind}
    (hstack : s.stack = .discarding entries cause :: below) :
    s.Does fun base contexts tail =>
      (s.within base contexts tail).runDiscarding entries cause (below ++ tail) := by
  cases entries with
  | nil =>
      cases cause with
      | none => exact Does.go s.world below
      | some cause => exact does_unwindInto hstack
  | cons e rest =>
      cases e with
      | slot name h =>
          cases h with
          | empty => exact Does.go s.world (.discarding rest cause :: below)
          | live fiber =>
              exact Does.leave (s.world.trace (.abandoned fiber))
                .dropping (.discarding rest cause :: below) fiber _
      | guard label onDrop =>
          let w := World.report { s.world with liveGuards := s.world.liveGuards - 1 }
            (.dropped label s.kind)
          cases onDrop with
          | nil => exact Does.go w (.discarding rest cause :: below)
          | cons op ops =>
              exact Does.go w (.code (Activation.ofCode .cleanup ("~" ++ label) (op :: ops)) ::
                .discarding rest cause :: below)

/-! ## The lowest frames -/

theorem does_runRoot (stage : RootStage) :
    s.Does fun base contexts tail =>
      (s.within base contexts tail).runRoot stage (below ++ tail) := by
  cases stage with
  | program => exact Does.halt .stuck
  | ending =>
      exact Does.go (s.world.report .ended) (.root (.draining drainRounds [] true none) :: below)
  | draining left names found panic =>
      cases names with
      | cons name names =>
          have htake : forall base contexts tail, (s.within base contexts tail).world.take name =
              ((s.world.take name).1, (s.world.take name).2.onto base) :=
            fun base _ _ => s.world.onto_take base name
          simp only [State.runRoot, htake]
          generalize s.world.take name = taken
          rcases taken with ⟨held, w⟩
          cases held with
          | empty => exact Does.go w (.root (.draining left names found panic) :: below)
          | live fiber =>
              exact Does.go w (.discarding (Handle.live fiber).entries none ::
                .root (.draining left names true panic) :: below)
      | nil =>
          cases left with
          | zero => exact Does.halt _
          | succ left =>
              cases found with
              | false => exact Does.halt _
              | true =>
                  exact Does.go s.world
                    (.root (.draining left s.world.globalNames false panic) :: below)

theorem does_runBase (stage : FiberStage) :
    s.Does fun base contexts tail =>
      (s.within base contexts tail).runBase stage (below ++ tail) := by
  cases stage with
  | leaving lease ending =>
      exact Does.leave (s.world.trace (.exiting lease.name)) (.base (.exited lease)) below
        ending.next .exit
  | unborn | idle record | busy lease | exited lease => exact Does.halt .stuck

theorem does_run : s.Does fun base contexts tail => (s.within base contexts tail).run := by
  cases hstack : s.stack with
  | nil =>
      refine ⟨.halt .stuck s.world, fun base contexts tail hshields => ?_⟩
      simp only [run, stack_within_nil hstack hshields]
      rfl
  | cons frame below =>
      simp only [run, stack_within hstack]
      cases frame with
      | code a => exact does_runCode hstack
      | calling call a => exact does_runCall call
      | discarding entries cause => exact does_runDiscarding hstack
      | dropping | onTop source => exact Does.halt .stuck
      | base stage => exact does_runBase stage
      | root stage => exact does_runRoot stage

/-! ## Arrivals -/

theorem does_conclude (scene : Scene) (fiber : ContextId) (reply : Reply) (purpose : ProbePurpose) :
    s.Does fun base contexts tail => (s.within base contexts tail).conclude (scene.onto base)
      (below ++ tail) fiber reply purpose := by
  have hhosts : forall base : List LogEntry, (scene.world.onto base).hosts = scene.world.hosts :=
    fun _ => rfl
  cases purpose with
  | question question slot =>
      simp only [conclude, Scene.onto_world, hhosts]
      cases question.note? scene.world.hosts reply with
      | none => exact Does.halt (.aborted (.violation .probeMismatched))
      | some note =>
          exact Does.go scene.world
            (.calling (.store [(slot, .live fiber)] (some note)) scene.code :: below)
  | check switch onTop =>
      cases reply with
      | stackKind kind => exact Does.halt (.aborted (.violation .probeMismatched))
      | affinity binding =>
          simp only [conclude, Scene.onto_world, hhosts]
          split
          · exact does_depart _ fiber switch onTop
          · exact Does.drop (scene.world.trace (.refusing _ binding)) _
              (.calling (.refuse _ switch.slot switch.onRefusal) scene.code :: below)

theorem does_deliver (h : Handle) (onTop : Option Closure) (target : SlotName) :
    s.Does fun base contexts tail =>
      (s.within base contexts tail).deliver h onTop target a (below ++ tail) :=
  Does.drop (s.world.note a.label (.resumed h)) (Closure.leftover onTop)
    (.calling (.store [(target, h)] none) a :: below)

theorem does_callBody (record : Record) (caller : Handle) :
    s.Does fun base contexts tail =>
      (s.within base contexts tail).callBody record caller (below ++ tail) := by
  unfold State.callBody
  split
  · rename_i body hbody
    exact Does.go (s.world.trace (.dispatching record.lease.name))
      (.code (body.activation caller) :: .base (.busy record.lease) :: below)
  · exact Does.halt (.aborted (.violation .dispatchedTwice))

theorem does_receive (source : ContextId) (message : Message) :
    s.Does fun base contexts tail => (s.within base contexts tail).receive source message := by
  have hanswer : forall binding : Affinity, s.Does fun base contexts tail =>
      (s.within base contexts tail).answer source binding :=
    fun binding => ⟨.answer source binding, fun _ _ _ _ => rfl⟩
  cases hstack : s.stack with
  | nil =>
      refine ⟨.halt .stuck s.world, fun base contexts tail hshields => ?_⟩
      simp only [receive, stack_within_nil hstack hshields]
      rfl
  | cons frame below =>
      simp only [receive, stack_within hstack]
      cases frame with
      | code a | discarding entries cause | onTop from' | root stage => exact Does.halt .stuck
      | calling call a =>
          cases call with
          | failBuild cause | refuse refusal slot onRefusal | store pending note =>
              exact Does.halt .stuck
          | create slot =>
              cases message with
              | handover =>
                  exact Does.go ((s.world.trace (.created source)).trace .spanLeft)
                    (.calling (.store [(slot, .live source)] none) a :: below)
              | farewell | eviction | query =>
                  exact Does.halt (.aborted (.violation .notParkedAfterStart))
          | probe query reply purpose =>
              cases message with
              | handover =>
                  cases reply with
                  | none => exact Does.halt (.aborted (.violation .probeNotAnswered))
                  | some reply =>
                      dsimp only
                      exact does_conclude ⟨s.world, a⟩ source reply purpose
              | farewell | eviction | query =>
                  cases reply <;> exact Does.halt (.aborted (.violation .probeNotReturned))
          | resume host onTop target =>
              cases message with
              | handover => exact does_deliver (.live source) onTop target
              | farewell => exact does_deliver .empty onTop target
              | query => exact hanswer (.bound host)
              | eviction =>
                  simp only [kind_within]
                  cases s.kind with
                  | native => exact Does.halt (.aborted (.violation .nativeStackUnwound))
                  | fiber =>
                      exact Does.raise (s.world.trace (.forcedUnwind source)) (.forced source)
                        (Closure.leftover onTop) (.code a :: below)
      | dropping =>
          cases message with
          | farewell => exact Does.go s.world below
          | handover | eviction | query =>
              exact Does.halt (.aborted (.violation .abandonedDidNotTerminate))
      | base stage =>
          cases stage with
          | unborn => exact Does.halt (.aborted (.violation .startedWithoutRecord))
          | exited lease => exact Does.halt (.aborted (.violation .terminatedWasResumed))
          | busy lease | leaving lease ending => exact Does.halt .stuck
          | idle record =>
              cases message with
              | handover => exact does_callBody record (.live source)
              | farewell => exact does_callBody record .empty
              | query => exact hanswer .unbound
              | eviction =>
                  exact Does.drop s.world (Closure.leftover record.body)
                    (.base (.leaving record.lease (.unwound source)) :: below)

theorem does_start (maker : ContextId) (record : Option Record) :
    s.Does fun base contexts tail => (s.within base contexts tail).start maker record := by
  cases hstack : s.stack with
  | nil =>
      refine ⟨.halt .stuck s.world, fun base contexts tail hshields => ?_⟩
      simp only [State.start, stack_within_nil hstack hshields]
      rfl
  | cons frame below =>
      simp only [State.start, stack_within hstack]
      cases frame with
      | code a | calling call a | discarding entries cause | dropping | onTop source | root stage =>
          exact Does.halt .stuck
      | base stage =>
          cases stage with
          | idle other | busy lease | leaving lease ending | exited lease => exact Does.halt .stuck
          | unborn =>
              cases record with
              | none => exact Does.halt (.aborted (.violation .startedWithoutRecord))
              | some record =>
                  exact Does.leave s.world (.base (.idle record)) below maker (.message .handover)

/-- Wherever a state is put, its next step is the same deed. -/
theorem does_step (s : State) :
    s.Does fun base contexts tail => (s.within base contexts tail).step := by
  have hcontrol : forall base contexts tail, (s.within base contexts tail).control = s.control :=
    fun _ _ _ => rfl
  simp only [step, hcontrol]
  cases s.control with
  | run => exact does_run
  | landed source signal =>
      cases signal with
      | message message => exact does_receive source message
      | onTop => exact ⟨.call source, fun _ _ _ _ => rfl⟩
      | exit => exact ⟨.release source, fun _ _ _ _ => rfl⟩
      | start record => exact does_start source record

end State

end Fibers
