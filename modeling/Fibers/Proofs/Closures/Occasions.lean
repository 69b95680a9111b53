import Fibers.Proofs.Closures.Remains

/-!
# When closures are used

The body of a fiber is called when control is first handed to it in earnest: what only asks something
leaves the body, and what unwinds the fiber destroys it.  A function that goes along with a switch is
called where that lands, or destroyed if it is refused.
-/

namespace Fibers

/--
Whether control comes in earnest: not just to ask something, and not to tell that a context has been
made or is gone.
-/
def Signal.inEarnest : Signal -> Bool
  | .message .query | .exit | .start _ => false
  | .message _ | .onTop => true

namespace State

variable {s s' : State} {lost : List ContextId} {k : Keeper} {f g : Closure} {c : ContextId}

/-! ## Calls -/

/-- The code of a closure runs on top of some frames, and has got what the closure had captured. -/
inductive Runs (s : State) (f : Closure) (s' : State) : Keeper -> Prop where
  | body {handle : Handle} {lease : Lease} :
      s'.stack = [.code (f.activation handle), .base (.busy lease)] -> Runs s f s' (.fiber s.running)
  | function {source : ContextId} :
      s'.stack = .code (f.activation (.live source)) :: .onTop source :: s.stack ->
        Runs s f s' (.sender source)

theorem Sound.runs_of_calls (h : s.Sound lost) (hcalls : s.Invokes k f) :
    exists s', s.step = .active s' ∧ s'.running = s.running ∧ s'.control = .run ∧ s.Runs f s' k := by
  cases hcalls with
  | function hcontrol hsource =>
      rcases h.worksOn_call hcontrol with ⟨f', s', hbrings, hstep, hrunning, hrun, hstack⟩
      rcases hbrings with ⟨host', target', a', below', hsource'⟩
      cases hsource.symm.trans hsource'
      exact ⟨s', hstep, hrunning, hrun, .function hstack⟩
  | body hcontrol hhandle hstack hbody =>
      rename_i source message handle record
      have hmove := step_of_idle hcontrol hstack hbody
      cases message with
      | handover | farewell => exact ⟨_, hmove, rfl, rfl, .body rfl⟩
      | query | eviction => cases hhandle

/-- Closures are used where control comes in earnest. -/
theorem Uses.occasion (h : s.Uses k f) :
    exists source signal, s.control = .landed source signal ∧ signal.inEarnest = true := by
  rcases h with hcalls | hdestroys
  · cases hcalls with
    | function hcontrol => exact ⟨_, _, hcontrol, rfl⟩
    | body hcontrol hhandle hstack hbody =>
        rename_i source message handle record
        cases message with
        | handover | farewell => exact ⟨_, _, hcontrol, rfl⟩
        | eviction | query => cases hhandle
  · cases hdestroys with
    | refused hcontrol => exact ⟨_, _, hcontrol, rfl⟩
    | evicted hcontrol => exact ⟨_, _, hcontrol, rfl⟩

theorem not_uses {source : ContextId} {signal : Signal} (hcontrol : s.control = .landed source signal)
    (hsignal : signal.inEarnest = false) (k : Keeper) (f : Closure) : ¬ s.Uses k f := by
  intro huses
  rcases huses.occasion with ⟨source', signal', hcontrol', hearnest⟩
  cases hcontrol.symm.trans hcontrol'
  cases hsignal.symm.trans hearnest

/-! ## Fibers whose bodies were not called yet -/

/-- What control does to a fiber with such a body, by what it comes with. -/
def Awakens (s : State) (source : ContextId) (f : Closure) : Signal -> Prop
  | .message .handover | .message .farewell => s.Invokes (.fiber s.running) f
  | .message .eviction => s.Destroys (.fiber s.running) f
  | .message .query => forall k g, ¬ s.Uses k g
  | .onTop => exists g, s.Invokes (.sender source) g
  -- The context that control comes from is gone, which the fiber is told by the next step.
  | .exit => (forall k g, ¬ s.Uses k g) ∧ exists s', s.step = .active s' ∧
      s'.running = s.running ∧ s'.stack = s.stack ∧ s'.control = .landed source (.message .farewell)
  | .start _ => False

theorem Sound.awakens {source : ContextId} {signal : Signal} {record : Record} (h : s.Sound lost)
    (hcontrol : s.control = .landed source signal) (hstack : s.stack = [.base (.idle record)]) :
    exists f, record.body = some f ∧ s.kept (.fiber s.running) = some f ∧
      s.Awakens source f signal := by
  rcases h.body_of_idle hstack with ⟨f, hbody⟩
  refine ⟨f, hbody, ?_, ?_⟩
  · have hstart : forall source record, s.control ≠ .landed source (.start record) := by
      intro source' record' hcontrol'
      cases hcontrol.symm.trans hcontrol'
      cases h.arrives hcontrol with
      | start hmaker hcreate hunborn =>
          rw [hunborn] at hstack
          cases hstack
    rw [kept_fiber fun _ => hstart, stackOf_running, hstack]
    exact hbody
  · cases signal with
    | message m =>
        cases m with
        | handover => exact .body hcontrol rfl hstack hbody
        | farewell => exact .body hcontrol rfl hstack hbody
        | eviction => exact .evicted hcontrol hstack hbody
        | query => exact not_uses hcontrol rfl
    | onTop =>
        cases h.arrives hcontrol with
        | onTop hsource hrest => exact ⟨_, .function hcontrol hsource⟩
    | exit =>
        rcases h.release hcontrol with ⟨lease, s', hsource, hmove, hr, -⟩
        have hstep : s.step = .active s' := by simp only [step, hcontrol, land, hmove]
        exact ⟨not_uses hcontrol rfl, s', hstep, hr.running, hr.stack, hr.control⟩
    | start record' =>
        cases h.arrives hcontrol with
        | start hmaker hcreate hunborn =>
            rw [hunborn] at hstack
            cases hstack

/-- A function that is over hands control on to what is parked below it. -/
theorem Finishes.lands {source : ContextId} {there : List Frame} (h : s.Finishes g source there) :
    exists s' next message, s.step = .active s' ∧ s'.running = s.running ∧ s'.stack = there ∧
      s'.control = .landed next (.message message) ∧ (Signal.message message).inEarnest = true := by
  cases h with
  | returned hrun hstack hblocks =>
      rename_i a hlabel hrole
      have hgives : s.step = s.give a.flow.result (.onTop source :: there) := by
        simp only [step, hrun, run, hstack, runCode, hblocks]
      rw [hgives]
      cases a.flow.result with
      | live next => exact ⟨_, next, .handover, rfl, rfl, rfl, rfl, rfl⟩
      | empty => exact ⟨_, source, .farewell, rfl, rfl, rfl, rfl, rfl⟩
  | unwound hrun hstack =>
      rename_i requester
      rw [step_of_unwind hrun hstack]
      exact ⟨_, requester, .eviction, rfl, rfl, rfl, rfl, rfl⟩

/-- To drop a handle is to have its context unwind. -/
theorem Sound.evicts {name : SlotName} {fiber : ContextId} {rest : List Entry}
    {cause : Option Unwind} {below : List Frame} (h : s.Sound lost) (hrun : s.control = .run)
    (hstack : s.stack = .discarding (.slot name (.live fiber) :: rest) cause :: below) :
    exists s', s.step = .active s' ∧ s'.running = fiber ∧
      s'.control = .landed s.running (.message .eviction) := by
  have hsane : s.Sane := ⟨lost, h⟩
  rcases hsane.enters hrun hstack with ⟨s', there, henters, -⟩
  exact ⟨s', henters.idles.1, henters.running, henters.control⟩

/-! ## Functions that go along with a switch -/

/-- What becomes of the function of a switch, by the handle that the switch is for. -/
inductive SendsAlong (s : State) (switch : SwitchSpec) (g : Closure) : Handle -> Prop where
  /-- There is no context to switch to. -/
  | empty : s.Discards g -> SendsAlong s switch g .empty
  /-- The switch is made, and the function is called where it lands. -/
  | called {c : ContextId} {n : Nat} {t : State} :
      (switch.checked = true ->
        (s.bindingOf c).allows (s.world.hosts.resolve switch.host) = true) ->
      s.Gives (.sender s.running) g -> Config.after n (.active s) = .active t -> t.running = c ->
        t.Invokes (.sender s.running) g -> SendsAlong s switch g (.live c)
  /-- The switch is refused. -/
  | refused {c : ContextId} {t : State} :
      switch.checked = true ->
      (s.bindingOf c).allows (s.world.hosts.resolve switch.host) = false ->
      s.Gives (.sender s.running) g -> Config.after 2 (.active s) = .active t ->
      t.Destroys (.sender s.running) g -> SendsAlong s switch g (.live c)

section Switch

variable {switch : SwitchSpec} {spec : FunctionSpec} {function : Option FunctionSpec}
  {onTop : Option Closure} {a : Activation} {below : List Frame} {scene : Scene}

/-- A switch that is refused calls nothing. -/
theorem Attempts.calls_nothing {i : Nat} {t : State}
    (h : s.Attempts switch function a below onTop c scene) (hsound : s.Sound lost)
    (hrefused : (s.bindingOf c).allows (s.world.hosts.resolve switch.host) = false) (hi : i ≤ 3)
    (hafter : Config.after i (.active s) = .active t) : ¬ t.Invokes k f := by
  have hrunning : t.control = .run -> ¬ t.Invokes k f := by
    intro hrun hcalls
    rcases Uses.landed (Or.inl hcalls) with ⟨source, signal, hcontrol⟩
    rw [hrun] at hcontrol
    cases hcontrol
  match i with
  | 0 =>
      cases hafter
      rcases operation?_eq_some h.operation with ⟨-, -, -, -, -, hrun, -⟩
      exact hrunning hrun
  | 1 =>
      rcases hsound.step_of_transfer h.step with ⟨-, there, -, -, hstep⟩
      cases hstep.symm.trans hafter
      exact fun hcalls => not_uses rfl rfl k f (Or.inl hcalls)
  | 2 =>
      cases (h.answered hsound).symm.trans hafter
      intro hcalls
      cases hcalls with
      | function hcontrol => cases hcontrol
      | body hcontrol hhandle hstack => cases hstack
  | 3 =>
      cases (h.refuses hsound hrefused).symm.trans hafter
      exact hrunning rfl
  | i + 4 => exact absurd hi (Nat.not_le.mpr (Nat.lt_add_left i (Nat.lt_succ_self 3)))

/-- A function that is on its way is called where it arrives. -/
theorem calls_hop {w : World} {host : Host} {target : SlotName} {there : List Frame}
    (h : s.Sound lost) (hne : c ≠ s.running) (hthere : s.parked? c = some there) :
    (s.hop w (.calling (.resume host (some g) target) a :: below) c there .onTop).Invokes
      (.sender s.running) g := by
  have hsource : (s.hop w (.calling (.resume host (some g) target) a :: below) c there .onTop).parked?
      s.running = some (.calling (.resume host (some g) target) a :: below) := by
    rw [parked?_hop _ _ _ _ h.listed hthere hne, if_neg hne.symm, if_pos rfl]
  exact .function rfl hsource

/-- A switch without a check is made at once. -/
theorem Sound.sendsAlong_unchecked (h : s.Sound lost)
    (hop : s.operation? = some (switch.operation (some spec))) (hstack : s.stack = .code a :: below)
    (hmade : ((Scene.mk s.world a.advance).make (some spec)).1 = some g)
    (htaken : ((Scene.mk s.world a.advance).make (some spec)).2.take switch.slot = (.live c, scene))
    (hchecked : switch.checked = false) : s.SendsAlong switch g (.live c) := by
  have hmove : s.step = s.depart scene below c switch (some g) := by
    rw [step_of_operation hstack hop, execute_operation]
    simp only [resume, htaken, hmade, hchecked]
  rcases h.step_of_transfer hmove with ⟨hne, there, hthere, -, hstep⟩
  have hnever : switch.checked = true ->
      (s.bindingOf c).allows (s.world.hosts.resolve switch.host) = true := by
    intro hyes
    cases hchecked.symm.trans hyes
  have hafter : Config.after 1 (.active s) = .active (s.hop _ _ c there .onTop) := hstep
  exact .called hnever (.sender hop hstack hmade htaken) hafter rfl (calls_hop h hne hthere)

/-- With a check it is made after the affinity has been told, or refused. -/
theorem Attempts.sendsAlong (h : s.Attempts switch (some spec) a below (some g) c scene)
    (hsound : s.Sound lost) : s.SendsAlong switch g (.live c) := by
  have hgives : s.Gives (.sender s.running) g := .sender h.operation h.stack h.made h.taken
  rcases h.rests hsound with ⟨hne, there, hthere, hnil, hrest⟩
  cases hallows : (s.bindingOf c).allows (s.world.hosts.resolve switch.host) with
  | true =>
      rcases depart_eq_hop scene below switch (some g) hthere hnil with ⟨e, hdepart⟩
      have hafter := (h.departs hsound hallows).trans (hdepart _ rfl)
      exact .called (fun _ => hallows) hgives hafter rfl (calls_hop hsound hne hthere)
  | false =>
      have hafter := h.answered hsound
      rw [<- h.hosts] at hallows
      exact .refused h.checked (h.hosts ▸ hallows) hgives hafter (.refused rfl rfl hallows)

theorem Sound.sendsAlong {handle : Handle} (h : s.Sound lost)
    (hop : s.operation? = some (switch.operation (some spec))) (hstack : s.stack = .code a :: below)
    (hmade : ((Scene.mk s.world a.advance).make (some spec)).1 = some g)
    (htaken : ((Scene.mk s.world a.advance).make (some spec)).2.take switch.slot = (handle, scene)) :
    s.SendsAlong switch g handle := by
  cases handle with
  | empty =>
      have hclosure : s.closure? = some g := by
        simp only [closure?, hop, SwitchSpec.operation, hstack]
        exact hmade
      have hkeeper : s.keeper? = none := by
        simp only [keeper?, hop, SwitchSpec.operation, hstack]
        rw [show FunctionSpec.mk spec.captures spec.moves spec.code = spec from rfl, htaken]
      exact .empty (Or.inr ⟨hclosure, hkeeper⟩)
  | live c =>
      cases hchecked : switch.checked with
      | false => exact h.sendsAlong_unchecked hop hstack hmade htaken hchecked
      | true => exact Attempts.sendsAlong ⟨hstack, hop, hchecked, hmade, htaken⟩ h

end Switch

end State

end Fibers
