import Fibers.Proofs.Alike.Step
import Fibers.Proofs.Refusal.Check

/-!
# Functions that hand their source on

A function that runs on top of another context is given the handle of the context it was sent from,
and decides what goes on below it.  The simplest one does nothing, and so hands this handle on: a
*relay*.  A switch with a relay takes more steps than a switch without, and comes to the same state.
So relays may be added to any switches of a program, and nothing but the trace tells of them.
-/

namespace Fibers

/-! ## One relay -/

/-- A function that captures nothing and does nothing. -/
def FunctionSpec.relay : FunctionSpec := ⟨[], [], []⟩

def Closure.relay (label : String) : Closure := ⟨label, [], .own "source", []⟩

theorem Scene.make_relay (s : Scene) :
    s.make (some .relay) = (some (.relay (s.code.label ++ "^")), s) := by
  simp [make, capture, FunctionSpec.relay, Closure.relay, takeAll]

namespace State

variable {s : State} {lost : List ContextId} {c : ContextId} {switch : SwitchSpec}

/-- A relay returns what it was given, which then arrives below it. -/
theorem after_relay (s : State) (label : String) (source next : ContextId) (there : List Frame) :
    Config.after 6 (.active
        { s with
          stack := .code ((Closure.relay label).activation (.live next)) :: .onTop source :: there
          control := .run }) =
      .active { s with stack := there, control := .landed next (.message .handover) } := rfl

/-- A context that is called on by a relay is where it would be without. -/
theorem depart_relay {there : List Frame} (hlisted : s.parked? s.running = some [])
    (hthere : s.parked? c = some there) (hne : c ≠ s.running) (hnil : there ≠ []) (scene : Scene)
    (below : List Frame) (switch : SwitchSpec) (label : String) :
    (Config.after 7 (s.depart scene below c switch (some (.relay label)))).untraced =
      (s.depart scene below c switch none).untraced := by
  let host := scene.world.hosts.resolve switch.host
  let waiting (onTop : Option Closure) : List Frame :=
    .calling (.resume host onTop switch.target) scene.code :: below
  let on := s.hop (scene.world.trace (.resumingOnTop c host)) (waiting (some (.relay label))) c
    there .onTop
  have hon : s.depart scene below c switch (some (.relay label)) = .active on :=
    transfer_eq_hop hthere hnil
  have hoff : s.depart scene below c switch none =
      .active (s.hop (scene.world.trace (.resuming c host)) (waiting none) c there
        (.message .handover)) :=
    transfer_eq_hop hthere hnil
  have hsource : on.parked? s.running = some (waiting (some (.relay label))) := by
    have hparked := parked?_hop (scene.world.trace (.resumingOnTop c host))
      (waiting (some (.relay label))) there .onTop hlisted hthere hne s.running
    rwa [if_neg hne.symm, if_pos rfl] at hparked
  have hcontexts : replaceStack s.running (waiting none) on.contexts =
      replaceStack c [] (replaceStack s.running (waiting none) s.contexts) := by
    change replaceStack s.running _ (replaceStack c [] (replaceStack s.running _ s.contexts)) = _
    rw [replaceStack_comm hne.symm, replaceStack_replaceStack]
  have hcall : on.step = .active
      { on with
        stack := .code ((Closure.relay label).activation (.live s.running)) ::
          .onTop s.running :: there
        contexts := replaceStack s.running (waiting none) on.contexts
        control := .run } := by
    change on.callOnTop s.running = _
    simp only [callOnTop, hsource, waiting]
    rfl
  have hseven : Config.after 7 (.active on) = Config.after 6 on.step := rfl
  rw [hon, hoff, hseven, hcall, hcontexts]
  refine (congrArg Config.untraced (after_relay
    { on with contexts := replaceStack c [] (replaceStack s.running (waiting none) s.contexts) }
    label s.running s.running there)).trans ?_
  simp [Config.untraced, untraced, on, hop, World.untraced, World.trace, World.report,
    LogEntry.isTrace]

section

variable {a : Activation} {below : List Frame} {label : String} {scene : Scene}

/-- Code makes its switch with a relay. -/
theorem step_relay (hstack : s.stack = .code a :: below)
    (hop : s.operation? = some (switch.operation (some .relay))) :
    s.step =
      s.resume ⟨s.world, a.advance⟩ below switch (some (.relay (a.advance.label ++ "^"))) := by
  rw [step_of_operation hstack hop, execute_operation, Scene.make_relay]

/-- In its place, code makes its switch without a relay. -/
theorem step_instead {op : Op} (switch : SwitchSpec) (hstack : s.stack = .code a :: below) (hop : s.operation? = some op) :
    (s.instead [.resume switch]).step = s.resume ⟨s.world, a.advance⟩ below switch none := by
  have hplain : (s.instead [.resume switch]).operation? = some (.resume switch) :=
    operation?_instead hop
  rw [instead_eq hstack] at hplain ⊢
  rw [step_of_operation rfl hplain, advance_instead]
  rfl

namespace Attempts

variable (h : s.Attempts switch (some .relay) a below (some (.relay label)) c scene)

include h

theorem without_relay :
    (s.instead [.resume switch]).Attempts switch none (a.instead [.resume switch]) below none c
      scene := by
  have htaken := h.taken
  rw [Scene.make_relay] at htaken
  constructor
  · rw [instead_eq h.stack]
  · exact operation?_instead h.operation
  · exact h.checked
  · rfl
  · rw [advance_instead, instead_eq h.stack]
    exact htaken

/-- The check finds the same, and a relay of a switch that is refused leaves nothing to drop. -/
theorem relayed (hsound : s.Sound lost) :
    exists k', (Config.after k' (.active s)).untraced =
      (Config.after 3 (.active (s.instead [.resume switch]))).untraced := by
  have hplain := h.without_relay
  have hsound' := hsound.instead h.operation [.resume switch]
  have hbinding : (s.instead [.resume switch]).bindingOf c = s.bindingOf c := by
    rw [instead_eq h.stack]
    rfl
  have hworld : (s.instead [.resume switch]).world = s.world := by
    rw [instead_eq h.stack]
  rcases h.rests hsound with ⟨hne, there, hthere, hnil, -⟩
  cases hallowed : (s.bindingOf c).allows (s.world.hosts.resolve switch.host) with
  | false =>
      refine ⟨3, ?_⟩
      rw [h.refuses hsound hallowed, hplain.refuses hsound' (by rwa [hbinding, hworld]), hbinding,
        hworld, instead_eq h.stack]
      rfl
  | true =>
      refine ⟨3 + 7, ?_⟩
      rw [Config.after_add, h.departs hsound hallowed,
        hplain.departs hsound' (by rwa [hbinding, hworld]), instead_eq h.stack]
      exact depart_relay hsound.listed hthere hne hnil _ below switch label

end Attempts

end

/-- A switch with a relay comes to what the switch without it does. -/
theorem Sound.relayed (h : s.Sound lost)
    (hop : s.operation? = some (switch.operation (some .relay))) :
    exists k k', (Config.after k' (.active s)).untraced =
      (Config.after k (.active (s.instead [.resume switch]))).untraced := by
  rcases operation?_eq_some hop with ⟨a, below, b, outer, rest, -, hstack, -⟩
  have hstep := step_relay hstack hop
  have hplain := step_instead switch hstack hop
  generalize htaken : (Scene.mk s.world a.advance).take switch.slot = taken
  rcases taken with ⟨handle, scene⟩
  cases handle with
  | empty =>
      refine ⟨1, 1, ?_⟩
      change Config.untraced s.step = Config.untraced (State.step _)
      rw [hstep, hplain]
      simp only [resume, htaken]
      cases switch.checked <;> rfl
  | live c =>
      cases hchecked : switch.checked with
      | false =>
          rcases h.parked_of_slot hstack htaken with ⟨hne, there, hthere, hrest⟩
          refine ⟨1, 8, ?_⟩
          change Config.untraced (Config.after 7 s.step) = Config.untraced (State.step _)
          rw [hstep, hplain]
          simp only [resume, htaken, hchecked]
          exact depart_relay h.listed hthere hne hrest.ne_nil scene below switch _
      | true =>
          have hattempts : s.Attempts switch (some .relay) a below
              (some (.relay (a.advance.label ++ "^"))) c scene := by
            refine ⟨hstack, hop, hchecked, ?_, ?_⟩
            · rw [Scene.make_relay]
            · rw [Scene.make_relay]
              exact htaken
          rcases hattempts.relayed h with ⟨k', hsame⟩
          exact ⟨3, k', hsame⟩

end State

/-! ## Relays in a program -/

/-- Code, and the same code with relays added to some switches, inside its operations as well. -/
inductive AddsRelays : List Op -> List Op -> Prop where
  | nil : AddsRelays [] []
  | keep {op op' : Op} {rest rest' : List Op} :
      Op.Alike AddsRelays op op' -> AddsRelays rest rest' -> AddsRelays (op :: rest) (op' :: rest')
  | relay (switch : SwitchSpec) {rest rest' : List Op} :
      AddsRelays rest rest' ->
        AddsRelays (.resume switch :: rest) (.resumeWith switch [] [] [] :: rest')

/-- A program, and the same program with relays added to some of its switches. -/
structure Program.AddsRelays (p p' : Program) : Prop where
  hosts : p'.hosts = p.hosts
  main : Fibers.AddsRelays p.main p'.main

namespace AddsRelays

variable {code code' rest rest' : List Op} {switch : SwitchSpec}

theorem append (h : AddsRelays code code') (hrest : AddsRelays rest rest') :
    AddsRelays (code ++ rest) (code' ++ rest') := by
  induction code generalizing code' with
  | nil =>
      cases h
      exact hrest
  | cons op code ih =>
      cases h with
      | keep hop hcode => exact .keep hop (ih hcode)
      | relay switch hcode => exact .relay switch (ih hcode)

theorem composes : Composes AddsRelays := ⟨.nil, append⟩

/-- Code comes to the same operation in both, unless that is a switch with a relay added. -/
theorem next (h : AddsRelays code code')
    (hnot : forall switch, code.head? = some (.resume switch) ->
      code'.head? ≠ some (switch.operation (some .relay))) : Next AddsRelays code code' := by
  cases h with
  | nil => exact .done
  | keep hop hcode => exact .op hop hcode
  | relay switch hcode => exact absurd rfl (hnot switch rfl)

theorem of_relay
    (h : AddsRelays (.resume switch :: rest) (switch.operation (some .relay) :: rest')) :
    AddsRelays rest rest' := by
  cases h with
  | keep hop hrest => exact hrest
  | relay switch hrest => exact hrest

theorem nil_iff (h : AddsRelays code code') : code = [] <-> code' = [] := by
  cases h <;> simp

end AddsRelays

/-- The new program is about to make a switch with a relay, and the old one the switch without. -/
def State.Relays (s s' : State) (switch : SwitchSpec) : Prop :=
  s.operation? = some (.resume switch) ∧ s'.operation? = some (switch.operation (some .relay))

namespace State.Alike

variable {s s' : State} {l l' : List LogEntry} {switch : SwitchSpec}

/-- Where no relay is added, both programs take the same step. -/
theorem step_together (h : s.Alike AddsRelays l l' s') (hnot : forall switch, ¬ s.Relays s' switch) :
    Config.Alike AddsRelays l l' s.step s'.step := by
  refine h.step AddsRelays.composes fun hrun => ⟨?_, ?_⟩
  · intro a a' below below' b b' outer outer' hstack hstack' hflow hblocks hblocks'
    rcases h.code_of_blocks hstack hstack' hblocks hblocks' with ⟨hsame, hcode⟩
    refine hcode.next fun switch hswitch hrelay => hnot switch ⟨?_, ?_⟩
    · rwa [operation?_of_onward hrun hstack hflow hblocks]
    · rwa [operation?_of_onward (h.runs.mpr hrun) hstack' (hsame.trans hflow) hblocks']
  · intro label onDrop onDrop' rest rest' cause below below' hstack hstack'
    exact (h.code_of_guard hstack hstack').1.nil_iff

/-- Without its next relay the new program stands to the old one as before. -/
theorem without_relay (h : s.Alike AddsRelays l l' s') (hrelays : s.Relays s' switch) :
    s.Alike AddsRelays l l' (s'.instead [.resume switch]) := by
  rcases operation?_eq_some hrelays.1 with ⟨a, below, b, outer, rest, -, hstack, -, hblocks, hcode⟩
  rcases operation?_eq_some hrelays.2 with
    ⟨a', below', b', outer', rest', -, hstack', -, hblocks', hcode'⟩
  have halike := h.stack
  rw [hstack, hstack'] at halike
  rw [instead_eq hstack']
  refine ⟨⟨h.running, h.contexts, h.world⟩, ?_, h.control⟩
  rw [hstack]
  cases halike with
  | cons hframe hbelow =>
      cases hframe with
      | code hactivation =>
          cases hactivation with
          | mk label role flow hrelated =>
              cases hblocks
              cases hblocks'
              cases hrelated with
              | cons hblock houter =>
                  cases hblock with
                  | mk hkind hops hentries =>
                      cases hcode
                      cases hcode'
                      have hplain : Op.Alike AddsRelays (.resume switch) (.resume switch) := .plain rfl
                      have hkept := AddsRelays.keep hplain hops.of_relay
                      exact .cons (.code (.mk _ _ _ (.cons (.mk hkind hkept hentries) houter))) hbelow

end State.Alike

/-! ## Runs -/

/-- Two worlds that differ in their trace only. -/
def World.SameButTrace (w w' : World) : Prop := w.Agrees w' ∧ w'.untraced = w.untraced

theorem World.SameButTrace.of_alike {l l' : List LogEntry} {w w' : World} (h : w.Alike l l' w')
    (hlogs : (l'.filter fun e => ¬ e.isTrace) = l.filter fun e => ¬ e.isTrace) :
    w.SameButTrace w' := by
  rcases h.grown with ⟨new, hlog, hlog'⟩
  refine ⟨h.agrees, ?_⟩
  rw [untraced, untraced, hlog, hlog', List.filter_append, List.filter_append, hlogs]

theorem World.SameButTrace.trans_untraced {w w' v : World} (h : w.SameButTrace w')
    (hsame : { v with log := v.untraced } = { w' with log := w'.untraced }) : w.SameButTrace v := by
  have hv : v = { w' with log := v.log } := congrArg (fun u : World => { u with log := v.log }) hsame
  refine ⟨?_, (congrArg World.log hsame).trans h.2⟩
  rw [hv, h.1]
  rfl

/-- What the old program ends with the new one ends with. -/
theorem State.Alike.ends {n : Nat} {s s' : State} {lost : List ContextId} {l l' : List LogEntry}
    {outcome : Outcome} {w : World} (h : s.Alike AddsRelays l l' s') (hsound : s'.Sound lost)
    (hlogs : (l'.filter fun e => ¬ e.isTrace) = l.filter fun e => ¬ e.isTrace)
    (hend : Config.after n (.active s) = .halted outcome w) :
    exists n' w', Config.after n' (.active s') = .halted outcome w' ∧ w.SameButTrace w' := by
  induction n generalizing s s' lost with
  | zero => cases hend
  | succ n ih =>
      have htogether : forall {t lost}, s.Alike AddsRelays l l' t -> t.Sound lost ->
          (forall switch, ¬ s.Relays t switch) ->
            exists n' w', Config.after n' (.active t) = .halted outcome w' ∧ w.SameButTrace w' := by
        intro t lost halike hsound hnot
        have hnext := halike.step_together hnot
        rw [Config.after] at hend
        generalize hold : s.step = c, hnew : t.step = c' at hnext
        rw [hold] at hend
        cases hnext with
        | active hactive =>
            rcases ih hactive (hsound.move hnew).2 hend with ⟨n', w', hend', hsame⟩
            exact ⟨n' + 1, w', by rw [Config.after, hnew, hend'], hsame⟩
        | halted outcome' hworld =>
            rw [Config.after_halted] at hend
            cases hend
            exact ⟨1, _, hnew, .of_alike hworld hlogs⟩
      by_cases hrelay : exists switch, s.Relays s' switch
      · -- The run from here is that without the relay, in which the next step is taken together.
        rcases hrelay with ⟨switch, hrelays⟩
        have hplain : (s'.instead [.resume switch]).operation? = some (.resume switch) :=
          State.operation?_instead hrelays.2
        have hnot : forall other, ¬ s.Relays (s'.instead [.resume switch]) other := by
          intro other hother
          cases hplain.symm.trans hother.2
        rcases htogether (h.without_relay hrelays) (hsound.instead hrelays.2 _) hnot with
          ⟨n', w', hend', hsame⟩
        rcases hsound.relayed hrelays.2 with ⟨k, k', hrelayed⟩
        have hlater := Config.after_untraced hrelayed n'
        rw [<- Config.after_add, <- Config.after_add, Nat.add_comm k n', Config.after_add n' k, hend',
          Config.after_halted] at hlater
        cases hreached : Config.after (k' + n') (.active s') with
        | active t =>
            rw [hreached] at hlater
            cases hlater
        | halted outcome' v =>
            rw [hreached] at hlater
            rcases Config.halted.inj hlater with ⟨rfl, hv⟩
            exact ⟨k' + n', v, hreached, hsame.trans_untraced hv⟩
      · exact htogether h hsound fun switch hrelays => hrelay ⟨switch, hrelays⟩

/-- Two answers that differ in their trace only. -/
structure Answer.SameButTrace (a a' : Answer) : Prop where
  /-- The error and its message are the same. -/
  outcome : a'.outcome = a.outcome
  log : a'.untraced = a.untraced
  rows : a'.rows false = a.rows false
  guards : a'.liveGuards = a.liveGuards
  lent : a'.liveStacks = a.liveStacks

theorem World.SameButTrace.answer {w w' : World} (h : w.SameButTrace w') (outcome : Outcome) :
    (Answer.ofWorld outcome w).SameButTrace (.ofWorld outcome w') := by
  have hlog : (Answer.ofWorld outcome w').untraced = (Answer.ofWorld outcome w).untraced := by
    simp only [Answer.untraced, Answer.ofWorld, List.filter_reverse]
    exact congrArg List.reverse h.2
  have hworld : w' = { w with log := w'.log } := h.1
  constructor
  · rfl
  · exact hlog
  · simp only [Answer.rows, hlog, Bool.false_eq_true, if_false]
    simp only [Answer.ofWorld]
    rw [hworld]
  · simp only [Answer.ofWorld]
    rw [hworld]
  · simp only [Answer.ofWorld]
    rw [hworld]

/-- The two programs start alike. -/
theorem Program.AddsRelays.start {p p' : Program} (h : p.AddsRelays p') :
    State.Alike Fibers.AddsRelays [] [] p.start p'.start := by
  have hworld : p'.start.world = p.start.world := by simp only [Program.start, h.hosts]
  refine ⟨⟨rfl, .cons (.mk _ .nil) .nil, ?_⟩, ?_, .run⟩
  · rw [hworld]
    exact .on p.start.world
  · exact .cons (.code (.mk _ _ _ (.cons (.mk .body h.main .nil) .nil))) (.cons (.root _) .nil)

/--
Relays may be added to any switches of a program, whatever these lead to: it ends in the same way,
with the same guards and stacks, and its log is the same but for the trace.
-/
theorem relays_transparent {p p' : Program} (h : p.AddsRelays p') :
    p.run.SameButTrace p'.run := by
  rcases (runs_end p).2 with ⟨n, outcome, w, -, hend, -, -, hrun⟩
  rcases (runs_end p').2 with ⟨m, outcome', w', -, hend', -, -, hrun'⟩
  rcases h.start.ends (State.sound_start p') rfl hend with ⟨n', v, hlast, hsame⟩
  have hfirst := Config.after_add m n' (.active p'.start)
  have hsecond := Config.after_add n' m (.active p'.start)
  rw [hend', Config.after_halted] at hfirst
  rw [hlast, Config.after_halted, Nat.add_comm, hfirst] at hsecond
  cases hsecond
  rw [hrun, hrun']
  exact hsame.answer outcome

/-- A small program to look at: its two switches have relays. -/
def Program.relayedFiber : Program where
  hosts := []
  main :=
    [.create ⟨.own "f", "F", none, .heap "A" 4096⟩ ["g"] []
        [.resumeWith ⟨.own "caller", false, none, .own "caller", .keep⟩ [] [] []],
      .resumeWith ⟨.own "f", false, none, .own "f", .keep⟩ [] [] []]

/-- It does what the same program does without relays. -/
theorem relays_transparent_of_relayedFiber :
    Program.parkedFiber.AddsRelays Program.relayedFiber ∧
      Program.parkedFiber.run.SameButTrace Program.relayedFiber.run := by
  have hadds : Program.parkedFiber.AddsRelays Program.relayedFiber :=
    ⟨rfl, .keep (.create _ _ _ (.relay _ .nil)) (.relay _ .nil)⟩
  exact ⟨hadds, relays_transparent hadds⟩

end Fibers
