import Fibers.Proofs.Build.Failure

/-!
# Failed calls leave nothing behind

Whatever an allocator does and a closure has captured, a call that cannot make a fiber undoes what it
has begun.  The stack is back before anything captured is dropped; then each captured entry is dropped
once, the last one first, on the stack of the caller; and then the cause is told.  A guard among them
may do what it likes meanwhile.
-/

namespace Fibers

namespace State

/-- What has become of a call that could not make a fiber for a closure. -/
structure FailsCleanly (s : State) (a : Activation) (below : List Frame) (spec : FiberSpec)
    (captures : List String) (moves : List SlotName) (scene : Scene) (f : Closure)
    (cause : BuildError) (s' : State) : Prop where
  /--
  There is no other context, no stack is registered, and as many are lent out as before.  What was
  asked for is logged, with the return of a stack that was handed out; nothing is dropped yet.
  -/
  state : s' = s.failing
    { s.world with
      globals := scene.world.globals
      liveGuards := s.world.liveGuards + captures.length
      memory := spec.allocator.left s.world
      log := spec.failureLog s.kind cause ++ s.world.log } f.captured cause scene.code below
  /-- The closure has taken its handles out of their slots.  The call has touched no other slot. -/
  slots : forall slot, (Scene.mk s'.world scene.code).handleAt slot =
    if slot ∈ moves then .empty else (Scene.mk s.world a).handleAt slot
  /-- Nobody has got the body, and so nobody will call it. -/
  kept : forall k, s'.kept k = s.kept k
  /--
  A stack that was handed out is apart from those of all fibers, and is that of no context ever: a
  context with its number does not come.
  -/
  unused : forall stack memory,
    spec.allocator.supply s.world.memory s.world.registry.ranges = .ok (stack, memory) ->
      (forall c lease, s'.leaseAt c = some lease -> lease.stack.Apart stack) ∧
      forall since t, s'.Leads since t -> s.world.memory.next ∉ contextKeys t.contexts
  /-- What has been captured is dropped entry by entry, before the call comes to its end. -/
  course : forall since t, s'.Leads since t ->
    t.Course s.running (.calling (.failBuild cause) scene.code :: below) f.captured since
  /-- A captured guard is dropped on the stack of the caller. -/
  kind : forall since t, s'.Leads since t -> forall u, u ∈ since -> forall label onDrop,
    u.dropAt? s.running (below.length + 2) = some (.guard label onDrop) ->
      exists u', u.step = .active u' ∧ u'.world.log = .dropped label s.kind :: u.world.log
  /-- In the end the caller is told the cause, and goes on as it is. -/
  returns : forall u : State,
    u.AtEnd s.running (.calling (.failBuild cause) scene.code :: below) none -> u.step = .active
      { u with
        world := (u.world.trace .spanLeft).note scene.code.label (.buildFailed cause)
        stack := .code scene.code :: below }
  /-- An unwind that has come out of a drop leaves the call, and goes on in the caller. -/
  unwinds : forall (u : State) (unwind : Unwind),
    u.AtEnd s.running (.calling (.failBuild cause) scene.code :: below) (some unwind) ->
      u.step = .active
        { u with
          world := u.world.trace .spanLeft
          stack := .discarding [] (some unwind) :: .code scene.code :: below }
  handle : (Failure.build cause).handle = .empty

/-- A call makes a fiber for a closure, or fails and leaves nothing. -/
structure Builds (s : State) (a : Activation) (below : List Frame) (spec : FiberSpec)
    (captures : List String) (moves : List SlotName) (scene : Scene) (f : Closure) : Prop where
  fails : forall cause, (exists s', s.create scene below spec f = .active s' ∧
      s'.stack = dropFirst f.captured (.calling (.failBuild cause) scene.code :: below)) ↔
    spec.allocator.Fails s.world cause
  makes : (forall cause, ¬ spec.allocator.Fails s.world cause) ->
    exists s' t record, s.create scene below spec f = .active s' ∧
      s'.running ∉ contextKeys s.contexts ∧ s'.stack = [.base .unborn] ∧
        Config.after 2 (.active s') = .active t ∧ t.running = s.running ∧ t.control = .run ∧
          t.stack = .calling (.store [(spec.slot, .live s'.running)] none) scene.code :: below ∧
            t.parked? s'.running = some [.base (.idle record)] ∧ record.body = some f
  heap : forall label size site, spec.allocator = .heap label size site ->
    ((exists cause, spec.allocator.Fails s.world cause) ↔ size < 1416)
  cleanly : forall cause, spec.allocator.Fails s.world cause ->
    exists s', s.create scene below spec f = .active s' ∧
      s.FailsCleanly a below spec captures moves scene f cause s'

variable {s s' : State} {lost : List ContextId} {a : Activation} {below : List Frame}
  {spec : FiberSpec} {captures : List String} {moves : List SlotName} {body : List Op}
  {scene : Scene} {f f' : Closure} {cause : BuildError}

/-! ## What a closure takes -/

theorem world_of_capture
    (hcapture : (Scene.mk s.world a.advance).capture spec.label (.own "caller") captures moves body =
      (f, scene)) :
    scene.world = { s.world with
      globals := scene.world.globals
      liveGuards := s.world.liveGuards + captures.length } := by
  have hscene := congrArg Prod.snd hcapture
  simp only [Scene.capture] at hscene
  rw [<- hscene, Scene.world_takeAll]

theorem handleAt_of_capture
    (hcapture : (Scene.mk s.world a.advance).capture spec.label (.own "caller") captures moves body =
      (f, scene)) (slot : SlotName) :
    scene.handleAt slot = if slot ∈ moves then .empty else (Scene.mk s.world a).handleAt slot := by
  have hscene := congrArg Prod.snd hcapture
  simp only [Scene.capture] at hscene
  have hsame : Scene.handleAt ⟨{ s.world with liveGuards := s.world.liveGuards + captures.length },
      a⟩ slot = (Scene.mk s.world a).handleAt slot := Scene.handleAt_congr rfl
  rw [<- hscene, Scene.handleAt_takeAll, Scene.handleAt_advance, hsame]

/-! ## The failing call -/

section Capture

variable
  (hcapture : (Scene.mk s.world a.advance).capture spec.label (.own "caller") captures moves body =
    (f, scene))

include hcapture

theorem world_of_failing (hfails : spec.allocator.Fails s.world cause) (below : List Frame)
    (g : Closure) :
    s.create scene below spec g = .active (s.failing
      { s.world with
        globals := scene.world.globals
        liveGuards := s.world.liveGuards + captures.length
        memory := spec.allocator.left s.world
        log := spec.failureLog s.kind cause ++ s.world.log } g.captured cause scene.code below) := by
  have hworld := world_of_capture hcapture
  have hmemory : scene.world.memory = s.world.memory := by rw [hworld]
  have hregistry : scene.world.registry = s.world.registry := by rw [hworld]
  have hleft : spec.allocator.left scene.world = spec.allocator.left s.world := by
    simp only [Allocator.left, hmemory, hregistry]
  have hlog : scene.world.log = s.world.log := by rw [hworld]
  rw [create_of_fails (hfails.congr hmemory hregistry), hleft, hlog, hworld]
  rfl

/-- A call that fails for a closure with other guards is as sound as the one that takes place. -/
theorem Sound.sane_failing (h : s.Sound lost) (hstep : s.step = s.create scene below spec f)
    (harms : List.Forall₂ Entry.Arms f.captured f'.captured)
    (hfails : spec.allocator.Fails s.world cause) :
    (s.failing
      { s.world with
        globals := scene.world.globals
        liveGuards := s.world.liveGuards + captures.length
        memory := spec.allocator.left s.world
        log := spec.failureLog s.kind cause ++ s.world.log } f'.captured cause scene.code
      below).Sane := by
  rw [world_of_failing hcapture hfails] at hstep
  exact ⟨_, (h.move hstep).2.arm harms⟩

theorem Sound.fails_cleanly (h : s.Sound lost) (hrun : s.control = .run)
    (hstack : s.stack = .code a :: below) (hstep : s.step = s.create scene below spec f)
    (harms : List.Forall₂ Entry.Arms f.captured f'.captured)
    (hfails : spec.allocator.Fails s.world cause) :
    exists s', s.create scene below spec f' = .active s' ∧
      s.FailsCleanly a below spec captures moves scene f' cause s' := by
  have hsane := h.sane_failing hcapture hstep harms hfails
  refine ⟨_, world_of_failing hcapture hfails below f', ?_⟩
  exact
    { state := rfl
      slots := fun slot => (Scene.handleAt_congr rfl).trans (handleAt_of_capture hcapture slot)
      kept := kept_failing hrun hstack
      unused := fun stack memory hsupply =>
        ⟨fun _ _ hlease => apart_of_failing hsane rfl hsupply hlease,
          fun _ _ hleads => h.unused hsane rfl hsupply hleads⟩
      course := fun since t hleads => hleads.course hsane rfl rfl rfl
      kind := fun since t hleads u hu label onDrop hdrop => by
        rw [h.kind]
        exact hleads.dropped_on hsane hu hdrop
      returns := fun u hend => by
        simp only [step, hend.control, run, hend.stack]
        rfl
      unwinds := fun u unwind hend => by
        simp only [step, hend.control, run, hend.stack]
        rfl
      handle := rfl }

theorem Sound.builds (h : s.Sound lost) (hrun : s.control = .run)
    (hstack : s.stack = .code a :: below) (hstep : s.step = s.create scene below spec f)
    (harms : List.Forall₂ Entry.Arms f.captured f'.captured) :
    s.Builds a below spec captures moves scene f' := by
  have hmemory : scene.world.memory = s.world.memory := by rw [world_of_capture hcapture]
  have hregistry : scene.world.registry = s.world.registry := by rw [world_of_capture hcapture]
  exact
    { fails := fun cause => h.create_fails_iff hmemory hregistry below f'
      makes := fun hfits => h.create_of_fits hmemory hregistry hfits below f'
      heap := fun label size site hallocator => hallocator ▸ Allocator.Fails.heap_iff
      cleanly := fun cause hfails => h.fails_cleanly hcapture hrun hstack hstep harms hfails }

end Capture

end State

/-! ## All calls -/

/--
A call makes a fiber, or fails for the cause of its allocator or of a small stack, and leaves nothing;
so it does for any closure that has captured the same handles and, with the same labels, any guards.
-/
theorem failed_builds_leave_nothing {p : Program} {past : List State} {s : State} {spec : FiberSpec}
    {captures : List String} {moves : List SlotName} {body : List Op} (h : p.Reaches past s)
    (hop : s.operation? = some (.create spec captures moves body)) :
    exists a below f scene, s.stack = .code a :: below ∧
      (Scene.mk s.world a.advance).capture spec.label (.own "caller") captures moves body =
        (f, scene) ∧ f.Captures captures moves ∧ s.step = s.create scene below spec f ∧
      forall f', List.Forall₂ Entry.Arms f.captured f'.captured ->
        s.Builds a below spec captures moves scene f' := by
  rcases State.operation?_eq_some hop with ⟨a, below, b, outer, rest, hrun, hstack, -⟩
  generalize hcapture :
    (Scene.mk s.world a.advance).capture spec.label (.own "caller") captures moves body = captured
  rcases captured with ⟨f, scene⟩
  have hcaptures : f.Captures captures moves := by
    have hmade := Scene.captures_capture ⟨s.world, a.advance⟩ spec.label (.own "caller") captures
      moves body
    rwa [hcapture] at hmade
  have hstep : s.step = s.create scene below spec f := by
    rw [State.step_of_operation hstack hop]
    simp only [State.execute, hcapture]
  exact ⟨a, below, f, scene, hstack, hcapture, hcaptures, hstep,
    fun f' harms => h.sound.builds hcapture hrun hstack hstep harms⟩

/-- A heap's stack that no fiber can live on. -/
def FiberSpec.small : FiberSpec := ⟨.own "f", "F", none, .heap "A" 1000⟩

/-- A program with a call that fails, for a body that has captured a guard and a fiber. -/
def Program.smallStack : Program where
  hosts := []
  main :=
    [.create ⟨.own "h", "H", none, .heap "B" 4096⟩ [] [] [], .create .small ["g"] [.own "h"] []]

set_option maxRecDepth 10000 in
theorem failed_builds_leave_nothing_of_smallStack :
    exists past s a below scene f fiber s' since t, Program.smallStack.Reaches past s ∧
      f.captured = [.slot (.own "h") (.live fiber), .guard "g" [.panic .other]] ∧
      s.Builds a below .small ["g"] [.own "h"] scene f ∧
      s.create scene below .small f = .active s' ∧ since.length = 10 ∧ s'.Leads since t ∧
      t.AtEnd s.running (.calling (.failBuild (.stackTooSmall 1000 1416)) scene.code :: below)
        (some (.panic .other)) := by
  have hafter : exists s a below f scene fiber s' t,
      Config.after 5 (.active Program.smallStack.start) = .active s ∧
      s.operation? = some (.create .small ["g"] [.own "h"] []) ∧ s.stack = .code a :: below ∧
      (Scene.mk s.world a.advance).capture "F" (.own "caller") ["g"] [.own "h"] [] = (f, scene) ∧
      f.captured = [.slot (.own "h") (.live fiber), .guard "g" []] ∧
      s.create scene below .small ⟨"F", [.slot (.own "h") (.live fiber), .guard "g" [.panic .other]],
        .own "caller", []⟩ = .active s' ∧
      Config.after 10 (.active s') = .active t ∧
      t.AtEnd s.running (.calling (.failBuild (.stackTooSmall 1000 1416)) scene.code :: below)
        (some (.panic .other)) :=
    ⟨_, _, _, _, _, _, _, _, rfl, rfl, rfl, rfl, rfl, rfl, rfl, rfl, rfl, rfl⟩
  rcases hafter with ⟨s, a, below, f, scene, fiber, s', t, hs, hop, hstack, hcapture, hcaptured,
    hcreate, ht, hend⟩
  rcases Program.after_eq_active.mp hs with ⟨past, -, hreach⟩
  rcases failed_builds_leave_nothing hreach hop with
    ⟨a', below', f', scene', hstack', hcapture', -, -, hbuilds⟩
  cases hstack.symm.trans hstack'
  cases hcapture.symm.trans hcapture'
  have harms : List.Forall₂ Entry.Arms f.captured
      [.slot (.own "h") (.live fiber), .guard "g" [.panic .other]] := by
    rw [hcaptured]
    exact .cons (.slot _ _) (.cons (.guard _ _ _) .nil)
  rcases State.after_eq_active.mp ht with ⟨since, hlength, hleads⟩
  exact ⟨past, s, a, below, scene, _, fiber, s', since, t, hreach, rfl, hbuilds _ harms, hcreate,
    hlength, hleads, hend⟩

end Fibers
