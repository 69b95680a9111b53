import Fibers.Proofs.Abandon.Log
import Fibers.Proofs.Stacks
import Fibers.Proofs.Trace.Frames

/-!
# Where a step leads

What a step makes of the topmost frames is told without a look at the other contexts.  In a state of
a run those are in order, so that the switch comes about; the stack of each context and the log
after the step are known then.
-/

namespace Fibers

/-- The context that is new after a step. -/
def Onward.newborn? : Onward -> Option ContextId
  | .launches fiber _ => some fiber
  | _ => none

namespace State

variable {s s' : State} {lost : List ContextId} {old new below stack : List Frame}
  {entries : List LogEntry} {w : World} {next : Onward} {c : ContextId}

def controlOf (s : State) : Onward -> Control
  | .run => .run
  | .lands source message => .landed source (.message message)
  | .leaves _ signal => .landed s.running signal
  | .launches _ record => .landed s.running (.start (some record))

/-- The state that is led to with a stack for the running context. -/
structure Goes (s : State) (stack : List Frame) (next : Onward) (s' : State) : Prop where
  control : s'.control = s.controlOf next
  keys : contextKeys s'.contexts = next.newborn?.toList ++ contextKeys s.contexts
  new : forall fiber, next.newborn? = some fiber -> fiber ∉ contextKeys s.contexts
  stackOf : forall c, s'.stackOf c =
    if next.newborn? = some c then some [.base .unborn]
    else if c = s.running then some stack else s.stackOf c
  stays : next = .run ∨ (exists source message, next = .lands source message) ->
    s'.running = s.running ∧ s'.stack = stack ∧ s'.contexts = s.contexts

/-- How a step passes in a state of a run. -/
inductive Passage (s s' : State) : Prop where
  | reworks {old new below : List Frame} {entries : List LogEntry} {next : Onward} :
      s.stack = old ++ below -> s.Reworks old new entries next -> s.Goes (new ++ below) next s' ->
        s'.world.log = entries ++ s.world.log -> Passage s s'
  | answers {prober : ContextId} {query : Query} {purpose : ProbePurpose} {a : Activation}
      {below : List Frame} (reply : Reply) :
      s.control = .landed prober (.message .query) -> prober ≠ s.running ->
        s.parked? prober = some (.calling (.probe query none purpose) a :: below) ->
        s' = s.hop s.world s.stack prober (.calling (.probe query (some reply) purpose) a :: below)
          (.message .handover) -> Passage s s'
  | calls {source : ContextId} {host : Host} {f : Closure} {target : SlotName} {a : Activation}
      {below : List Frame} :
      s.control = .landed source .onTop -> source ≠ s.running ->
        s.parked? source = some (.calling (.resume host (some f) target) a :: below) ->
        s' = s.topped source f (.calling (.resume host none target) a :: below) -> Passage s s'
  | releases {source : ContextId} {lease : Lease} :
      s.control = .landed source .exit -> source ≠ s.running ->
        s.parked? source = some [.base (.exited lease)] -> s.Releases source lease s' ->
        s'.world.log = lease.returnLog (homeOf s.running) ++
          .traced (.releasing lease.name) :: s.world.log -> Passage s s'

/-! ## Onward -/

theorem world_onward : (s.onward w stack next).world = w := by
  cases next with
  | lands source message => rfl
  | _ => simp only [onward, world_go, world_transfer]

theorem Goes.of_staying {control : Control} (hcontrol : s.controlOf next = control)
    (hnext : next.newborn? = none) :
    s.Goes stack next { s with world := w, stack := stack, control := control } where
  control := hcontrol.symm
  keys := by rw [hnext]; rfl
  new fiber hfiber := by rw [hnext] at hfiber; cases hfiber
  stackOf c := by
    rw [hnext, if_neg nofun]
    exact stackOf_go c
  stays _ := ⟨rfl, rfl, rfl⟩

theorem Sound.goes_leaves {target : ContextId} {signal : Signal} (h : s.Sound lost)
    (hmove : s.transfer w stack target signal = .active s') :
    s.Goes stack (.leaves target signal) s' := by
  have hthere := h.stackOf_transfer hmove
  rcases transfer_eq_active hmove with ⟨there, -, -, rfl⟩
  exact
    { control := rfl
      keys := by simp [State.hop, Onward.newborn?]
      new := by
        intro fiber hfiber
        cases hfiber
      stackOf := by
        intro c
        have hold : (Onward.leaves target signal).newborn? ≠ some c := (Option.some_ne_none c).symm
        rw [hthere, if_neg hold]
      stays := by
        rintro (hrun | ⟨source, message, hlands⟩)
        · cases hrun
        · cases hlands }

theorem Sound.goes_launches {fiber : ContextId} {record : Record} (h : s.Sound lost)
    (hmove : s.step = (s.grown fiber).transfer w stack fiber (.start (some record)))
    (hstep : s.step = .active s') : s.Goes stack (.launches fiber record) s' := by
  have hnew := h.new_of_launch hmove hstep
  have hothers : forall c, c ≠ fiber -> s'.stackOf c =
      if c = s.running then some stack else s.stackOf c := fun c hc => h.stackOf_launch hmove hstep hc
  rw [hmove] at hstep
  rcases transfer_eq_active hstep with ⟨there, hthere, -, rfl⟩
  have hborn : there = [.base .unborn] := by
    have hlookup : (s.grown fiber).parked? fiber = some [.base .unborn] := by
      simp [parked?, grown]
    exact Option.some.inj (hthere.symm.trans hlookup)
  exact
    { control := rfl
      keys := by
        simp only [State.hop, contextKeys_replaceStack]
        rfl
      new := by
        intro c hc
        cases hc
        exact hnew
      stackOf := by
        intro c
        by_cases hc : c = fiber
        · subst hc
          simp only [Onward.newborn?, if_pos, <- hborn]
          exact stackOf_running
        · have hold : (Onward.launches fiber record).newborn? ≠ some c :=
            fun hnewborn => hc (Option.some.inj hnewborn).symm
          rw [hothers c hc, if_neg hold]
      stays := by
        rintro (hrun | ⟨source, message, hlands⟩)
        · cases hrun
        · cases hlands }

theorem Sound.goes (h : s.Sound lost) (hmove : s.step = s.onward w stack next)
    (hstep : s.step = .active s') : s'.world = w ∧ s.Goes stack next s' := by
  have honward : s.onward w stack next = .active s' := hmove.symm.trans hstep
  constructor
  · have hworld : (s.onward w stack next).world = w := world_onward
    rw [honward] at hworld
    exact hworld
  · cases next with
    | run =>
        cases honward
        exact .of_staying rfl rfl
    | lands source message =>
        cases honward
        exact .of_staying rfl rfl
    | leaves target signal => exact h.goes_leaves honward
    | launches fiber record => exact h.goes_launches hmove hstep

theorem Goes.stackOf_running (hgoes : s.Goes stack next s') (h : s.Sound lost) :
    s'.stackOf s.running = some stack := by
  have hlisted := h.mem_contextKeys_of_stackOf State.stackOf_running
  have hold : next.newborn? ≠ some s.running := fun hnewborn => hgoes.new _ hnewborn hlisted
  rw [hgoes.stackOf, if_neg hold, if_pos rfl]

/-! ## Stacks that are given back -/

theorem Sound.log_of_release {source : ContextId} {lease : Lease} (h : s'.Sound lost)
    (hsource : s.parked? source = some [.base (.exited lease)])
    (hrelease : s.release source = .active s') :
    s'.world.log = lease.returnLog (homeOf s.running) ++
      .traced (.releasing lease.name) :: s.world.log := by
  have hkind := h.kind
  unfold State.kind World.kindOf at hkind
  unfold State.release at hrelease
  rw [hsource] at hrelease
  cases howner : lease.owner with
  | none =>
      simp only [howner, Config.active.injEq] at hrelease
      subst hrelease
      simp [howner, Lease.returnLog, World.trace, World.report]
  | some label =>
      simp only [howner, Config.active.injEq] at hrelease
      subst hrelease
      simp only [World.report, World.trace] at hkind
      simp [howner, Lease.returnLog, World.trace, World.report, World.kindOf, hkind]

/-! ## All steps -/

theorem Sound.passage (h : s.Sound lost) (hstep : s.step = .active s') : s.Passage s' := by
  have hsteps := s.steps_step
  have hafter := (h.move hstep).2
  generalize hcfg : s.step = cfg at hsteps
  cases hsteps with
  | reworks hstack hreworks hlog =>
      rcases h.goes hcfg hstep with ⟨hworld, hgoes⟩
      exact .reworks hstack hreworks hgoes (hworld ▸ hlog)
  | answer hcontrol =>
      rcases h.answer hcontrol with ⟨query, reply, purpose, a, below, hprober, hmove, -⟩
      have hne := h.ne_running hprober (show needOf _ = some .reply from rfl)
      rw [hcfg, hmove] at hstep
      exact .answers reply hcontrol hne hprober (Config.active.inj hstep).symm
  | call hcontrol =>
      rcases h.call hcontrol with ⟨host, f, target, a, below, hsource, hmove, -⟩
      have hne := h.ne_running hsource (show needOf _ = some .call from rfl)
      rw [hcfg, hmove] at hstep
      exact .calls hcontrol hne hsource (Config.active.inj hstep).symm
  | release hcontrol =>
      rcases h.release hcontrol with ⟨lease, s'', hsource, hmove, hreleases, -⟩
      have hne := h.ne_running hsource (show needOf _ = some .remains from rfl)
      have hrelease := hcfg.symm.trans hstep
      cases hmove.symm.trans hrelease
      exact .releases hcontrol hne hsource hreleases (hafter.log_of_release hsource hrelease)
  | halt => rw [hcfg] at hstep; cases hstep

end State

end Fibers
