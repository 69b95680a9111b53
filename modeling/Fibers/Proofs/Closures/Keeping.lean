import Fibers.Proofs.Delivery
import Fibers.Proofs.Refusal.Check

/-!
# Who keeps a closure

An operation makes a closure, and hands it to a keeper unless it is dropped at once: a fiber keeps its
body, and a context keeps the function that it sends along with a switch.  The keeper has it until it
is used, that is called or destroyed.  Each step is told here by what it hands out and what it uses,
and no keeper gains or loses a closure in any other way.
-/

namespace Fibers

/-- Who has a closure that has not been used yet. -/
inductive Keeper where
  /-- A fiber, of its body. -/
  | fiber (c : ContextId)
  /-- A context, of the function that it sends along with a switch. -/
  | sender (c : ContextId)
deriving DecidableEq

/-- The function that the topmost call of a stack still has. -/
def functionOf : List Frame -> Option Closure
  | .calling (.probe _ _ purpose) _ :: _ => purpose.function?
  | .calling (.resume _ onTop _) _ :: _ => onTop
  | _ => none

def FiberStage.body? : FiberStage -> Option Closure
  | idle record => record.body
  | _ => none

/-- The body that the fiber of a stack still has. -/
def bodyOf (stack : List Frame) : Option Closure := (stageOf stack).bind FiberStage.body?

/-- The context of a fiber that is made in the given world, if it can be made. -/
def FiberSpec.home? (spec : FiberSpec) (w : World) : Option ContextId :=
  match spec.allocator.supply w.memory w.registry.ranges with
  | .ok (stack, _) =>
      if stack.size < Placement.required recordSize then none else some w.memory.next
  | .error _ => none

theorem FiberSpec.home_eq {spec : FiberSpec} {w : World} {c : ContextId}
    (hhome : spec.home? w = some c) : c = w.memory.next := by
  unfold FiberSpec.home? at hhome
  split at hhome
  · split at hhome
    · cases hhome
    · exact (Option.some.inj hhome).symm
  · cases hhome

/-- Whether a fiber can be made depends on memory and on the stacks in use only. -/
theorem FiberSpec.home?_congr {spec : FiberSpec} {w w' : World} (hmemory : w'.memory = w.memory)
    (hregistry : w'.registry = w.registry) : spec.home? w' = spec.home? w := by
  simp only [FiberSpec.home?, hmemory, hregistry]

namespace State

/-! ## What is kept -/

/-- The body of the running fiber.  One that starts is only just being told. -/
def body? (s : State) : Option Closure :=
  match s.control with
  | .landed _ (.start record) => record.bind Record.body
  | _ => bodyOf s.stack

/-- The closure that a keeper has. -/
def kept (s : State) : Keeper -> Option Closure
  | .fiber c => if c = s.running then s.body? else (s.parked? c).bind bodyOf
  | .sender c => (s.stackOf c).bind functionOf

/-! ## What the next step does with closures -/

/-- The closure that the next step makes. -/
def closure? (s : State) : Option Closure :=
  match s.operation?, s.stack with
  | some (.create spec captures moves body), .code a :: _ =>
      some ((Scene.mk s.world a.advance).capture spec.label (.own "caller") captures moves body).1
  | some (.resumeWith _ captures moves onTop), .code a :: _ =>
      ((Scene.mk s.world a.advance).make (some ⟨captures, moves, onTop⟩)).1
  | _, _ => none

/-- Who gets it.  Without a fiber, and without a context to switch to, nobody does. -/
def keeper? (s : State) : Option Keeper :=
  match s.operation?, s.stack with
  | some (.create spec _ _ _), _ => (spec.home? s.world).map .fiber
  | some (.resumeWith switch captures moves onTop), .code a :: _ =>
      match (((Scene.mk s.world a.advance).make (some ⟨captures, moves, onTop⟩)).2.take
        switch.slot).1 with
      | .live _ => some (.sender s.running)
      | .empty => none
  | _, _ => none

def given? (s : State) : Option (Keeper × Closure) :=
  match s.keeper?, s.closure? with
  | some k, some f => some (k, f)
  | _, _ => none

/--
The closure that the next step calls: a function that has come with a switch, or the body of a fiber
to which control is handed before its body was called.
-/
def called? (s : State) : Option (Keeper × Closure) :=
  match s.control, s.stack with
  | .landed source .onTop, _ => ((s.parked? source).bind functionOf).map (.sender source, ·)
  | .landed _ (.message .handover), [.base (.idle record)]
  | .landed _ (.message .farewell), [.base (.idle record)] =>
      record.body.map (.fiber s.running, ·)
  | _, _ => none

/--
The closure that the next step destroys: the body of a fiber that is to be unwound before its body was
called, or the function of a switch that is refused.
-/
def destroyed? (s : State) : Option (Keeper × Closure) :=
  match s.control, s.stack with
  | .landed _ (.message .eviction), [.base (.idle record)] => record.body.map (.fiber s.running, ·)
  | .landed _ (.message .handover),
      .calling (.probe _ (some (.affinity binding)) (.check switch onTop)) _ :: _ =>
      if binding.allows (s.world.hosts.resolve switch.host) then none
      else onTop.map (.sender s.running, ·)
  | _, _ => none

/-- The closure that the next step uses. -/
def used? (s : State) : Option (Keeper × Closure) := s.called?.or s.destroyed?

variable {s s' : State} {lost : List ContextId} {c source : ContextId} {k : Keeper} {f : Closure}
  {stack : List Frame}

/-! ## Stacks without a function -/

theorem functionOf_of_atRest (h : AtRest stack) : functionOf stack = none := by
  rcases h with ⟨record, rfl⟩ | ⟨host, target, a, below, rfl⟩
  · rfl
  · rfl

theorem functionOf_of_inDropOf (h : InDropOf stack) : functionOf stack = none := by
  rcases h with ⟨below, rfl⟩
  rfl

theorem functionOf_of_inCreate (h : InCreate stack) : functionOf stack = none := by
  rcases h with ⟨slot, a, below, rfl⟩
  rfl

theorem functionOf_of_active (h : Active stack) : functionOf stack = none := by
  unfold functionOf
  split
  · exact False.elim h
  · exact False.elim h
  · rfl

/-- Running code has no function that has not been sent yet. -/
theorem Sound.functionOf_of_run (h : s.Sound lost) (hrun : s.control = .run) :
    functionOf s.stack = none := by
  have hstands := h.stands
  simp only [Stands, hrun] at hstands
  exact functionOf_of_active hstands.2

/-- What a switch lands in has a function only if it waits for the reply to a probe. -/
theorem Sound.functionOf_of_landed {signal : Signal} (h : s.Sound lost)
    (hcontrol : s.control = .landed source signal) (hfunction : functionOf s.stack ≠ none) :
    signal = .message .handover ∧ Answered s.stack := by
  cases h.arrives hcontrol with
  | handover hparked hthere hplace =>
      rcases hplace with hrest | hcreate | hanswered
      · exact absurd (functionOf_of_atRest hrest) hfunction
      · exact absurd (functionOf_of_inCreate hcreate) hfunction
      · exact ⟨rfl, hanswered⟩
  | farewell hplace | exit hparked hplace =>
      rcases hplace with hrest | hdrop
      · exact absurd (functionOf_of_atRest hrest) hfunction
      · exact absurd (functionOf_of_inDropOf hdrop) hfunction
  | eviction hparked hthere hrest | query hparked hquery hrest | onTop hparked hrest =>
      exact absurd (functionOf_of_atRest hrest) hfunction
  | start hparked hcreate hunborn hrecord =>
      rw [hunborn] at hfunction
      exact absurd rfl hfunction

/-! ## What is handed out, and what is used -/

/-- A closure is made and handed to its keeper. -/
inductive Gives (s : State) : Keeper -> Closure -> Prop where
  | fiber {spec : FiberSpec} {captures : List String} {moves : List SlotName} {body : List Op}
      {a : Activation} {below : List Frame} {f : Closure} {scene : Scene} {c : ContextId} :
      s.operation? = some (.create spec captures moves body) -> s.stack = .code a :: below ->
        (Scene.mk s.world a.advance).capture spec.label (.own "caller") captures moves body =
          (f, scene) ->
        spec.home? s.world = some c -> Gives s (.fiber c) f
  | sender {switch : SwitchSpec} {spec : FunctionSpec} {a : Activation} {below : List Frame}
      {f : Closure} {c : ContextId} {scene : Scene} :
      s.operation? = some (switch.operation (some spec)) -> s.stack = .code a :: below ->
        ((Scene.mk s.world a.advance).make (some spec)).1 = some f ->
        ((Scene.mk s.world a.advance).make (some spec)).2.take switch.slot = (.live c, scene) ->
        Gives s (.sender s.running) f

/-- A closure is called. -/
inductive Invokes (s : State) : Keeper -> Closure -> Prop where
  /-- A function that has come with a switch is to run before what the switch has landed in. -/
  | function {source : ContextId} {host : Host} {f : Closure} {target : SlotName} {a : Activation}
      {below : List Frame} :
      s.control = .landed source .onTop ->
        s.parked? source = some (.calling (.resume host (some f) target) a :: below) ->
        Invokes s (.sender source) f
  /-- Control is handed to a fiber whose body was not called yet. -/
  | body {source : ContextId} {message : Message} {handle : Handle} {record : Record} {f : Closure} :
      s.control = .landed source (.message message) -> message.handle? source = some handle ->
        s.stack = [.base (.idle record)] -> record.body = some f -> Invokes s (.fiber s.running) f

/-- A closure is destroyed. -/
inductive Destroys (s : State) : Keeper -> Closure -> Prop where
  /-- A switch is refused that the function was to go along with. -/
  | refused {source : ContextId} {query : Query} {binding : Affinity} {switch : SwitchSpec}
      {f : Closure} {a : Activation} {below : List Frame} :
      s.control = .landed source (.message .handover) ->
        s.stack = .calling (.probe query (some (.affinity binding)) (.check switch (some f))) a ::
          below ->
        binding.allows (s.world.hosts.resolve switch.host) = false ->
        Destroys s (.sender s.running) f
  /-- A fiber is to be unwound whose body was not called yet. -/
  | evicted {requester : ContextId} {record : Record} {f : Closure} :
      s.control = .landed requester (.message .eviction) -> s.stack = [.base (.idle record)] ->
        record.body = some f -> Destroys s (.fiber s.running) f

theorem Gives.of_given? (h : s.given? = some (k, f)) : s.Gives k f := by
  unfold given? at h
  split at h
  · rename_i k' f' hkeeper hclosure
    cases h
    unfold keeper? at hkeeper
    unfold closure? at hclosure
    split at hclosure
    · rename_i spec captures moves body a below hop hstack
      simp only [hop, Option.map_eq_some_iff] at hkeeper
      rcases hkeeper with ⟨c, hhome, rfl⟩
      cases hclosure
      exact .fiber hop hstack rfl hhome
    · rename_i switch captures moves onTop a below hop hstack
      simp only [hop, hstack] at hkeeper
      split at hkeeper
      · rename_i c htaken
        cases hkeeper
        have hmakes : s.operation? = some (switch.operation (some ⟨captures, moves, onTop⟩)) := hop
        exact .sender hmakes hstack hclosure (Prod.ext htaken rfl)
      · cases hkeeper
    · cases hclosure
  · cases h

theorem Gives.given? (h : s.Gives k f) : s.given? = some (k, f) := by
  cases h with
  | fiber hop hstack hcapture hhome =>
      simp only [State.given?, keeper?, closure?, hop, hstack, hcapture, hhome, Option.map_some]
  | sender hop hstack hmade htaken =>
      rename_i switch spec a below c scene
      have hclosure : s.closure? = some f := by
        simp only [closure?, hop, SwitchSpec.operation, hstack]
        exact hmade
      have hkeeper : s.keeper? = some (.sender s.running) := by
        simp only [keeper?, hop, SwitchSpec.operation, hstack]
        rw [show FunctionSpec.mk spec.captures spec.moves spec.code = spec from rfl, htaken]
      simp only [State.given?, hkeeper, hclosure]

theorem Invokes.called? (h : s.Invokes k f) : s.called? = some (k, f) := by
  cases h with
  | function hcontrol hsource =>
      simp only [State.called?, hcontrol, hsource, Option.bind_some, functionOf, Option.map_some]
  | body hcontrol hhandle hstack hbody =>
      rename_i source message handle record
      cases message with
      | handover | farewell =>
          simp only [State.called?, hcontrol, hstack, hbody, Option.map_some]
      | query | eviction => cases hhandle

theorem Destroys.destroyed? (h : s.Destroys k f) : s.destroyed? = some (k, f) := by
  cases h with
  | refused hcontrol hstack hallows =>
      simp [State.destroyed?, hcontrol, hstack, hallows]
  | evicted hcontrol hstack hbody =>
      simp only [State.destroyed?, hcontrol, hstack, hbody, Option.map_some]

theorem Sound.calls_of_called? (h : s.Sound lost) (hcalled : s.called? = some (k, f)) :
    s.Invokes k f := by
  unfold called? at hcalled
  split at hcalled
  · rename_i source hcontrol
    cases h.arrives hcontrol with
    | onTop hsource hrest =>
        simp only [hsource, Option.bind_some, functionOf, Option.map_some, Option.some.injEq,
          Prod.mk.injEq] at hcalled
        rcases hcalled with ⟨rfl, rfl⟩
        exact .function hcontrol hsource
  · rename_i source record hcontrol hstack
    rcases Option.map_eq_some_iff.mp hcalled with ⟨f', hbody, heq⟩
    cases heq
    exact .body hcontrol rfl hstack hbody
  · rename_i source record hcontrol hstack
    rcases Option.map_eq_some_iff.mp hcalled with ⟨f', hbody, heq⟩
    cases heq
    exact .body hcontrol rfl hstack hbody
  · cases hcalled

theorem Destroys.of_destroyed? (h : s.destroyed? = some (k, f)) : s.Destroys k f := by
  unfold State.destroyed? at h
  split at h
  · rename_i source record hcontrol hstack
    rcases Option.map_eq_some_iff.mp h with ⟨f', hbody, heq⟩
    cases heq
    exact .evicted hcontrol hstack hbody
  · rename_i source query binding switch onTop a below hcontrol hstack
    split at h
    · cases h
    · rename_i hallows
      rcases Option.map_eq_some_iff.mp h with ⟨f', hfunction, heq⟩
      cases heq
      rw [hfunction] at hstack
      exact .refused hcontrol hstack (Bool.eq_false_iff.mpr hallows)
  · cases h

/-- A closure is called or destroyed. -/
def Uses (s : State) (k : Keeper) (f : Closure) : Prop := s.Invokes k f ∨ s.Destroys k f

theorem Sound.uses_iff (h : s.Sound lost) : s.used? = some (k, f) ↔ s.Uses k f := by
  rw [used?, Option.or_eq_some_iff]
  constructor
  · intro hused
    rcases hused with hcalled | ⟨-, hdestroyed⟩
    · exact Or.inl (h.calls_of_called? hcalled)
    · exact Or.inr (.of_destroyed? hdestroyed)
  · intro huses
    rcases huses with hcalls | hdestroys
    · exact Or.inl hcalls.called?
    · refine Or.inr ⟨?_, hdestroys.destroyed?⟩
      cases hdestroys with
      | refused hcontrol hstack => simp [called?, hcontrol, hstack]
      | evicted hcontrol hstack => simp only [called?, hcontrol, hstack]

theorem Gives.run (h : s.Gives k f) : s.control = .run := by
  have hoperation : exists op, s.operation? = some op := by
    cases h with
    | fiber hop => exact ⟨_, hop⟩
    | sender hop => exact ⟨_, hop⟩
  rcases hoperation with ⟨op, hop⟩
  rcases operation?_eq_some hop with ⟨-, -, -, -, -, hrun, -⟩
  exact hrun

theorem Uses.landed (h : s.Uses k f) : exists source signal, s.control = .landed source signal := by
  rcases h with hcalls | hdestroys
  · cases hcalls with
    | function hcontrol => exact ⟨_, _, hcontrol⟩
    | body hcontrol => exact ⟨_, _, hcontrol⟩
  · cases hdestroys with
    | refused hcontrol => exact ⟨_, _, hcontrol⟩
    | evicted hcontrol => exact ⟨_, _, hcontrol⟩

end State

end Fibers
