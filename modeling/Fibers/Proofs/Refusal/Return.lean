import Fibers.Proofs.Refusal.Check

/-!
# Refused switches

A switch that is refused has done nothing but to ask.  The function that should have run is dropped
without having been called, and what this leads to would have come of the drop anywhere else.  Then the
call returns, and gives the handle back; so the run is one in which the call was never made.
-/

namespace Fibers

namespace State

variable {s : State} {a : Activation} {below : List Frame} {switch : SwitchSpec}
  {f : Option FunctionSpec} {g : Option Closure} {c : ContextId} {scene : Scene} {r : Refusal}

/-! ## Beside a run without the call -/

/--
For so many steps a call waits for a drop, and another run does the same.  Nothing tells the two apart
but their trace, and the frames that wait.
-/
structure Beside (s : State) (waiting spared : List Frame) (x y : Config) (m : Nat) : Prop where
  drops : forall i, i < m -> exists u rest,
    u.Drops s.running none waiting rest ∧ Config.after i x = .active u
  alike : forall i, i ≤ m -> exists z : Config,
    (Config.after i x).untraced = z.atop s.running s.world.untraced waiting ∧
      (Config.after i y).untraced = z.atop s.running s.world.untraced spared

/--
A refused call returns after so many steps.  All that was captured has been dropped by then, one entry
after another.  Its run goes on as the other one does, and has a note more.
-/
structure Returns (s : State) (label : String) (r : Refusal) (captured : List Entry)
    (waiting : List Frame) (x y : Config) (m : Nat) (t : State) : Prop where
  after : Config.after m x = .active t
  running : t.running = s.running
  control : t.control = .run
  stack : t.stack = waiting
  inTurn : forall done e left, captured = done ++ e :: left -> exists (i : Nat) (u : State), i < m ∧
    Config.after i x = .active u ∧ u.AtDrop s.running none waiting (e :: left)
  rest : forall n, exists z : Config,
    (Config.after (m + 1 + n) x).untraced =
        z.onto (.noted label (.refused r) :: t.world.untraced) ∧
      (Config.after (m + n) y).untraced = z.onto t.world.untraced

/-- What a refused call comes to, beside a run without it: it returns, unless the run ends before. -/
inductive Refuses (s : State) (label : String) (r : Refusal) (captured : List Entry)
    (waiting spared : List Frame) (x y : Config) : Prop where
  | returns (m : Nat) (t : State) : s.Beside waiting spared x y m ->
      s.Returns label r captured waiting x y m t -> Refuses s label r captured waiting spared x y
  | halts (m : Nat) (outcome : Outcome) (w : World) : s.Beside waiting spared x y m ->
      (Config.after m x).untraced = .halted outcome w ->
      (Config.after m y).untraced = .halted outcome w ->
      Refuses s label r captured waiting spared x y

section Refused

variable {k : State} {captured : List Entry} {base base' : List LogEntry} {m : Nat}
  (hrunning : k.running = s.running)
  (hbase : (base.filter fun e => ¬ e.isTrace) = s.world.untraced)
  (hbase' : (base'.filter fun e => ¬ e.isTrace) = s.world.untraced)

include hrunning hbase hbase'

theorem beside_of_atop {waiting spared : List Frame}
    (hdrops : forall i, i < m -> exists u rest, u.Drops k.running none waiting rest ∧
      Config.after i (.active (k.above base (dropFirst captured waiting))) = .active u)
    (hatop : forall i, i ≤ m -> exists x : Config, forall base low,
      Config.after i (.active (k.above base (dropFirst captured low))) =
        x.atop k.running base low) :
    s.Beside waiting spared (.active (k.above base (dropFirst captured waiting)))
      (.active (k.above base' (dropFirst captured spared))) m := by
  refine ⟨hrunning ▸ hdrops, fun i hi => ?_⟩
  rcases hatop i hi with ⟨x, hx⟩
  refine ⟨x.untraced, ?_, ?_⟩
  · rw [hx, Config.untraced_atop, hbase, hrunning]
  · rw [hx, Config.untraced_atop, hbase', hrunning]

/-- What a drop comes to decides what a refused call comes to. -/
theorem DropsFirst.refuses (hfirst : k.DropsFirst captured m)
    (hdrops : forall i, i < m -> exists u rest,
      u.Drops k.running none (switch.refusing r a below) rest ∧
        Config.after i (.active (k.above base (dropFirst captured (switch.refusing r a below)))) =
          .active u)
    (hatop : forall i, i ≤ m -> exists x : Config, forall base low,
      Config.after i (.active (k.above base (dropFirst captured low))) =
        x.atop k.running base low)
    (hhandle : r.handle = .live c) :
    s.Refuses a.label r captured (switch.refusing r a below) (switch.restoring c a below)
      (.active (k.above base (dropFirst captured (switch.refusing r a below))))
      (.active (k.above base' (dropFirst captured (switch.restoring c a below)))) := by
  have hbeside : s.Beside _ (switch.restoring c a below) _ _ m :=
    beside_of_atop hrunning hbase hbase' hdrops hatop
  cases hfirst with
  | halts outcome w hhalted =>
      refine .halts m outcome { w with log := w.untraced ++ s.world.untraced } hbeside ?_ ?_
      · rw [hhalted, Config.untraced, World.untraced_onto, hbase]
        rfl
      · rw [hhalted, Config.untraced, World.untraced_onto, hbase']
        rfl
  | ends k' hsame hrun hafter hturns =>
      refine .returns m _ hbeside ⟨hafter base _, hsame.trans hrunning, hrun, rfl, ?_, ?_⟩
      · intro done e left hes
        rcases hturns done e left hes with ⟨i, u, hi, hu, hcontrol, hlater⟩
        exact ⟨i, _, hi, hlater base _, hu.trans hrunning, hcontrol, rfl⟩
      · -- The two runs are the same from here on, on top of what has been logged so far.
        let z : Config := .active
          { k' with world := { k'.world with log := [] }, stack := switch.restoring c a below }
        have hreturned : Config.after (m + 1)
            (.active (k.above base (dropFirst captured (switch.refusing r a below)))) =
            z.onto (.noted a.label (.refused r) :: (k'.world.onto base).log) := by
          rw [Config.after_succ, hafter]
          exact step_refusing hrun hhandle base
        have hspared : Config.after m
            (.active (k.above base' (dropFirst captured (switch.restoring c a below)))) =
            z.onto (k'.world.onto base').log := by
          rw [hafter]
          rfl
        have hlog : (k'.world.onto base').untraced = (k'.world.onto base).untraced := by
          rw [World.untraced_onto, World.untraced_onto, hbase, hbase']
        refine fun n => ⟨(Config.after n z).untraced, ?_, ?_⟩
        · rw [Config.after_add, hreturned, Config.after_onto, Config.untraced_onto]
          rfl
        · rw [Config.after_add, hspared, Config.after_onto, Config.untraced_onto]
          exact congrArg (Config.onto · _) hlog

end Refused

theorem Attempts.refused {p : Program} {past : List State}
    (h : s.Attempts switch f a below g c scene) (hreach : p.Reaches past s)
    (hrefused : (s.bindingOf c).allows (s.world.hosts.resolve switch.host) = false) :
    s.Refuses a.label (s.refusal switch c) (Closure.leftover g)
      (switch.refusing (s.refusal switch c) scene.code below)
      (switch.restoring c scene.code below) (Config.after 3 (.active s))
      (s.go scene.world
        (dropFirst (Closure.leftover g) (switch.restoring c scene.code below))) := by
  let k : State := { s with world := { scene.world with log := [] }, control := .run }
  let base : List LogEntry :=
    [.traced (.refusing (s.world.hosts.resolve switch.host) (s.bindingOf c)),
      .traced (.probed c .affinity)] ++ scene.world.log
  have hlog : scene.world.log = s.world.log := by rw [h.world]
  have hbase : (base.filter fun e => ¬ e.isTrace) = s.world.untraced := by
    simp [base, hlog, World.untraced, LogEntry.isTrace]
  have hbase' : (scene.world.log.filter fun e => ¬ e.isTrace) = s.world.untraced := by
    rw [hlog]
    rfl
  have hstarts : Config.after 3 (.active s) = .active (k.above base (dropFirst (Closure.leftover g)
      (switch.refusing (s.refusal switch c) scene.code below))) :=
    h.refuses hreach.sound hrefused
  have hlate := Config.after_add past.length 3 (.active p.start)
  rw [Program.after_eq_active.mpr ⟨past, rfl, hreach⟩, hstarts] at hlate
  rcases Program.after_eq_active.mp hlate with ⟨later, -, hlater⟩
  rcases hlater.ends with ⟨n, outcome, w, hend⟩
  have hsane : (k.above base (dropFirst (Closure.leftover g)
      (switch.refusing (s.refusal switch c) scene.code below))).Sane := ⟨_, hlater.sound⟩
  rcases hsane.dropsFirst rfl h.plain hend with ⟨m, hfirst, hdrops, hatop⟩
  rw [hstarts, <- h.label]
  exact DropsFirst.refuses rfl hbase hbase' hfirst hdrops hatop rfl

/-! ## Handles that come back -/

/-- The handle goes back to where the code had it, if it was in a slot of its own. -/
theorem Attempts.restores {name : String} (h : s.Attempts switch f a below g c scene)
    (hslot : switch.slot = .own name) (w : World) :
    Scene.put ⟨w, scene.code⟩ switch.slot (.live c) =
      (.empty, ⟨w, ((Scene.mk s.world a.advance).make f).2.code⟩) := by
  have htaken := h.taken
  rw [hslot] at htaken ⊢
  simp only [Scene.take, Prod.mk.injEq] at htaken
  rcases htaken with ⟨hlive, rfl⟩
  simp only [Scene.put, Activation.put_of_take (Prod.ext hlive rfl)]

/-- Without a function there is nothing to drop: the code goes on as if it had not made the call. -/
theorem Attempts.keeps (h : s.Attempts switch none a below g c scene)
    (hkeep : switch.onRefusal = .keep) :
    Config.after 2 (s.go scene.world (switch.restoring c scene.code below)) =
      .active (s.instead []) := by
  rcases operation?_eq_some h.operation with ⟨a', below', -, -, -, hrun, -⟩
  have hput : Scene.put ⟨scene.world, scene.code⟩ switch.slot (.live c) =
      (.empty, ⟨s.world, a.advance⟩) := Scene.put_of_take [] h.taken
  have hstore : State.step
      { s with
        world := scene.world
        stack := .calling (.store [(switch.slot, .live c)] none) scene.code :: below
        control := .run } =
      s.go s.world (.calling (.store [] none) a.advance :: below) := by
    simp only [State.step, run, runCall, hput]
    rfl
  rw [instead_eq h.stack, instead_nil, SwitchSpec.restoring, hkeep]
  calc Config.after 2 _
    _ = Config.after 1 (State.step
        { s with
          world := scene.world
          stack := .calling (.store [(switch.slot, .live c)] none) scene.code :: below
          control := .run }) := rfl
    _ = _ := by
      rw [hstore, hrun]
      rfl

/-- Dropping the handle that has come back is dropping it instead of making the call. -/
theorem Attempts.discards (h : s.Attempts switch none a below g c scene)
    (hdiscard : switch.onRefusal = .discard) :
    (s.instead [.drop switch.slot]).step =
      s.go scene.world (switch.restoring c scene.code below) := by
  have hop : (s.instead [_]).operation? = some (.drop switch.slot) := operation?_instead h.operation
  rw [instead_eq h.stack] at hop ⊢
  rw [step_of_operation rfl hop, advance_instead, SwitchSpec.restoring, hdiscard]
  have htaken : (Scene.mk s.world a.advance).take switch.slot = (.live c, scene) := h.taken
  simp only [execute, htaken]
  rfl

/-! ## All switches -/

/-- The two questions about the affinity of a context are answered alike. -/
structure TellsAffinity (s : State) (slot : SlotName) (c : ContextId) : Prop where
  affinity : Config.after 5 (.active (s.instead [.ask .affinity slot])) =
    .active ((s.instead []).told (.probed c .affinity) (.affinity (s.bindingOf c)))
  canResume (host : Option String) :
    Config.after 5 (.active (s.instead [.ask (.canResume host) slot])) =
      .active ((s.instead []).told (.probed c .affinity)
        (.canResume ((s.bindingOf c).allows (s.world.hosts.resolve host))))

/-- What a switch with a checked affinity comes to. -/
structure Checks (s : State) (switch : SwitchSpec) (f : Option FunctionSpec) (a : Activation)
    (below : List Frame) (g : Option Closure) (c : ContextId) (scene : Scene) : Prop where
  /-- The last entry that a function has captured comes first. -/
  captured {spec : FunctionSpec} : f = some spec -> exists moved : List (SlotName × Handle),
    moved.map Prod.fst = spec.moves ∧
      Closure.leftover g = (spec.captures.map (Entry.guard · []) ++
        moved.map fun entry => Entry.slot entry.1 entry.2).reverse
  /-- If the affinity allows it, control gets there, and the check has left nothing but a trace. -/
  granted : (s.bindingOf c).allows (s.world.hosts.resolve switch.host) = true ->
    (exists t, Config.after 3 (.active s) = .active t ∧ t.running = c ∧
      t.control = .landed s.running (departure g)) ∧
    forall n, (Config.after (3 + n) (.active s)).untraced =
      (Config.after (1 + n) (.active (s.instead [switch.unchecked.operation f]))).untraced
  /-- If not, the call is refused at once, and returns when the function is dropped. -/
  refused : (s.bindingOf c).allows (s.world.hosts.resolve switch.host) = false ->
    Config.after 3 (.active s) =
      s.go ((scene.world.trace (.probed c .affinity)).trace
          (.refusing (s.world.hosts.resolve switch.host) (s.bindingOf c)))
        (dropFirst (Closure.leftover g) (switch.refusing (s.refusal switch c) scene.code below)) ∧
    s.Refuses a.label (s.refusal switch c) (Closure.leftover g)
      (switch.refusing (s.refusal switch c) scene.code below)
      (switch.restoring c scene.code below) (Config.after 3 (.active s))
      (s.go scene.world
        (dropFirst (Closure.leftover g) (switch.restoring c scene.code below)))
  /-- Nothing is different by then but what the function and the handle were taken from. -/
  shared : scene.world =
    { s.world with globals := scene.world.globals, liveGuards := scene.world.liveGuards }
  /-- A handle that is put back is where it was. -/
  restored {name : String} (w : World) : switch.slot = .own name ->
    Scene.put ⟨w, scene.code⟩ switch.slot (.live c) =
      (.empty, ⟨w, ((Scene.mk s.world a.advance).make f).2.code⟩)
  /-- Without a function to drop, the code goes on as if it had not made the call. -/
  kept : f = none -> switch.onRefusal = .keep ->
    Config.after 2 (s.go scene.world (switch.restoring c scene.code below)) =
      .active (s.instead [])
  /-- Or it goes on as if it had dropped the handle instead. -/
  discarded : f = none -> switch.onRefusal = .discard ->
    (s.instead [.drop switch.slot]).step =
      s.go scene.world (switch.restoring c scene.code below)

end State

/--
A switch with a checked affinity agrees with what can be asked, and with the switch without the check.
It is refused if the affinity does not allow it; then the function that goes along is dropped, and
nothing else happens before the call returns.
-/
theorem checked_switch {p : Program} {past : List State} {s : State} (h : p.Reaches past s) :
    (forall op slot c, s.operation? = some op -> s.handleIn slot = .live c ->
      s.TellsAffinity slot c) ∧
    forall switch f a below g c scene, s.Attempts switch f a below g c scene ->
      s.Checks switch f a below g c scene := by
  refine ⟨fun op slot c hop hlive => ⟨?_, fun host => ?_⟩, ?_⟩
  · exact h.sound.told hop hlive .affinity
  · exact h.sound.told hop hlive (.canResume host)
  · intro switch f a below g c scene hattempts
    constructor
    · rintro spec rfl
      have hnames := Scene.names_takeAll { (Scene.mk s.world a.advance) with world :=
        { s.world with liveGuards := s.world.liveGuards + spec.captures.length } } spec.moves
      exact ⟨_, hnames, by rw [<- hattempts.made]; rfl⟩
    · exact hattempts.granted h.sound
    · exact fun hrefused => ⟨hattempts.refuses h.sound hrefused, hattempts.refused h hrefused⟩
    · exact hattempts.world
    · exact fun w hslot => hattempts.restores hslot w
    · rintro rfl
      exact hattempts.keeps
    · rintro rfl
      exact hattempts.discards

set_option maxRecDepth 10000 in
/-- The call is refused, since the fiber is bound to the other host. -/
theorem checked_switch_of_foreignHost :
    exists past s a below g scene, Program.foreignHost.Reaches past s ∧
      (s.bindingOf 1).allows (s.world.hosts.resolve none) = false ∧
      s.TellsAffinity (.own "f") 1 ∧
      s.Checks ⟨.own "f", true, none, .own "f", .keep⟩ (some ⟨["g"], [], [.say "called"]⟩) a below g
        1 scene := by
  have hafter : exists s a below g scene,
      Config.after 11 (.active Program.foreignHost.start) = .active s ∧
      (s.bindingOf 1).allows (s.world.hosts.resolve none) = false ∧
      s.handleIn (.own "f") = .live 1 ∧
      s.Attempts ⟨.own "f", true, none, .own "f", .keep⟩ (some ⟨["g"], [], [.say "called"]⟩) a below g
        1 scene :=
    ⟨_, _, _, _, _, rfl, rfl, rfl, rfl, rfl, rfl, rfl, rfl⟩
  rcases hafter with ⟨s, a, below, g, scene, hs, hforeign, hlive, hattempts⟩
  rcases Program.after_eq_active.mp hs with ⟨past, -, hreach⟩
  rcases checked_switch hreach with ⟨htells, hchecks⟩
  exact ⟨past, s, a, below, g, scene, hreach, hforeign,
    htells _ _ _ hattempts.operation hlive, hchecks _ _ _ _ _ _ _ hattempts⟩

end Fibers
