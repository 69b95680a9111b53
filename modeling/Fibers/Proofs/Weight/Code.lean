import Fibers.Proofs.Spine
import Fibers.Proofs.Weight.Basic

/-!
# What code costs

Every step makes a state lighter, but for one that begins a round at the end of a run.  Together with
that it is told here what a step makes of the spine of the running context's stack.  This part is
about what running code does to its slots, and about its operations.
-/

namespace Fibers

/-! ## Hosts -/

namespace Scene

@[simp] theorem hosts_put {s : Scene} (slot : SlotName) (h : Handle) :
    (s.put slot h).2.world.hosts = s.world.hosts := by
  cases slot with
  | own name => rfl
  | shared name =>
      cases hx : exchangeShared name h s.world.globals <;> simp [put, World.put, hx]

@[simp] theorem hosts_look {s : Scene} (slot : SlotName) :
    (s.look slot).2.world.hosts = s.world.hosts := by
  simp [look]

@[simp] theorem hosts_takeAll {s : Scene} (slots : List SlotName) :
    (s.takeAll slots).2.world.hosts = s.world.hosts := by
  induction slots generalizing s with
  | nil => rfl
  | cons slot rest ih => simp [takeAll, ih]

@[simp] theorem hosts_capture {s : Scene} (label : String) (argument : SlotName)
    (captures : List String) (moves : List SlotName) (code : List Op) :
    (s.capture label argument captures moves code).2.world.hosts = s.world.hosts := by
  simp [capture]

end Scene

namespace State

/-! ## Steps and their costs -/

/-- The weight of what the running context has at hand. -/
def atHand (rounds : Nat) (s : State) : Nat :=
  s.world.weight rounds + stackWeight s.stack + s.control.weight

/-- A step can lead to this, and is paid for. -/
def Affords (s : State) (rounds : Nat) (w : World) (stack : List Frame) (signal : Nat) : Prop :=
  w.weight rounds + stackWeight stack + signal + 1 ≤ s.atHand rounds

/-- What a step does to the spine of the running context's stack, and that it is paid for. -/
inductive Spends (s : State) (rounds : Nat) : Config -> Prop where
  | go {w : World} {stack : List Frame} :
      spine stack = spine s.stack -> s.Affords rounds w stack 0 -> Spends s rounds (s.go w stack)
  | depart {w : World} {switch : SwitchSpec} {onTop : Option Closure} {a : Activation}
      {below : List Frame} {target : ContextId} {signal : Signal} :
      s.switch? = some switch -> spine below = spine s.stack ->
        s.Affords rounds w
          (.calling (.resume (s.world.hosts.resolve switch.host) onTop switch.target) a :: below)
          signal.weight ->
        Spends s rounds (s.transfer w
          (.calling (.resume (s.world.hosts.resolve switch.host) onTop switch.target) a :: below)
          target signal)
  | probe {w : World} {purpose : ProbePurpose} {a : Activation} {below : List Frame}
      {target : ContextId} :
      s.Probes purpose -> spine below = spine s.stack ->
        s.Affords rounds w (.calling (.probe purpose.query none purpose) a :: below) 0 ->
        Spends s rounds (s.transfer w (.calling (.probe purpose.query none purpose) a :: below)
          target (.message .query))
  | launch {spec : FiberSpec} {captures : List String} {moves : List SlotName} {body : List Op}
      {w : World} {slot : SlotName} {a : Activation} {below : List Frame} {fiber : ContextId}
      {record : Record} :
      s.operation? = some (.create spec captures moves body) -> spine below = spine s.stack ->
        s.Affords rounds w (.calling (.create slot) a :: below)
          (Signal.start (some record)).weight ->
        Spends s rounds
          ({ s with contexts := (fiber, [.base .unborn]) :: s.contexts }.transfer w
            (.calling (.create slot) a :: below) fiber (.start (some record)))
  | abandon {w : World} {entries : List Entry} {cause : Option Unwind} {below rest : List Frame}
      {fiber : ContextId} :
      s.control = .run -> s.stack = .discarding entries cause :: below ->
        spine rest = spine s.stack ->
        s.Affords rounds w (.dropping :: rest) (Signal.message .eviction).weight ->
        Spends s rounds (s.transfer w (.dropping :: rest) fiber (.message .eviction))
  /-- The lowest frame of a fiber comes to another stage. -/
  | stage {w : World} {stack rest : List Frame} {old new : FiberStage} :
      spine s.stack = .base old :: rest -> spine stack = .base new :: rest ->
        s.Affords rounds w stack 0 -> Spends s rounds (s.go w stack)
  | exit {w : World} {lease : Lease} {below : List Frame} {old : FiberStage} {next : ContextId} :
      s.stack = .base old :: below ->
        s.Affords rounds w (.base (.exited lease) :: below) Signal.exit.weight ->
        Spends s rounds (s.transfer w (.base (.exited lease) :: below) next .exit)
  | start {record : Record} {below : List Frame} {maker : ContextId} :
      s.control = .landed maker (.start (some record)) -> s.stack = .base .unborn :: below ->
        s.Affords rounds s.world (.base (.idle record) :: below)
          (Signal.message .handover).weight ->
        Spends s rounds
          (s.transfer s.world (.base (.idle record) :: below) maker (.message .handover))
  /-- Control is back where it was left, by a return or by an unwind. -/
  | back {w : World} {stack : List Frame} {host : Host} {onTop : Option Closure}
      {target : SlotName} {a : Activation} {below : List Frame} {source : ContextId}
      {message : Message} :
      s.control = .landed source (.message message) -> message ≠ .query ->
        s.stack = .calling (.resume host onTop target) a :: below ->
        spine stack = spine below -> s.Affords rounds w stack 0 -> Spends s rounds (s.go w stack)
  /-- A function on top is over, and control lands in what lies below. -/
  | lift {source from' : ContextId} {message : Message} {below : List Frame} :
      s.control = .run -> message ≠ .query -> spine s.stack = .onTop source :: spine below ->
        s.Affords rounds s.world below (Signal.message message).weight ->
        Spends s rounds
          (.active { s with stack := below, control := .landed from' (.message message) })
  | answer {prober : ContextId} {binding : Affinity} :
      s.control = .landed prober (.message .query) -> Spends s rounds (s.answer prober binding)
  | call {source : ContextId} :
      s.control = .landed source .onTop -> Spends s rounds (s.callOnTop source)
  | release {source : ContextId} :
      s.control = .landed source .exit -> Spends s rounds (s.release source)
  /-- The main program comes to another stage, from which as many rounds are left. -/
  | settle {w : World} {stack rest : List Frame} {old new : RootStage} :
      spine s.stack = .root old :: rest -> spine stack = .root new :: rest ->
        new.rounds = old.rounds -> s.Affords rounds w stack 0 -> Spends s rounds (s.go w stack)
  /-- A round begins, which goes through all shared slots. -/
  | round {left : Nat} {panic : Option Payload} {below : List Frame} :
      s.control = .run -> s.stack = .root (.draining (left + 1) [] true panic) :: below ->
        Spends s rounds
          (s.go s.world (.root (.draining left s.world.globalNames false panic) :: below))
  | halt {outcome : Outcome} {w : World} : Spends s rounds (.halted outcome w)

/-! ## Code at hand -/

/-- Running code, with so much of the weight of its state to spare. -/
structure Spares (s : State) (rounds : Nat) (scene : Scene) (below : List Frame) (n : Nat) :
    Prop where
  spine : spine below = spine s.stack
  hosts : scene.world.hosts = s.world.hosts
  weight : scene.weight rounds + stackWeight below + n ≤ s.atHand rounds

variable {s : State} {rounds n : Nat} {scene : Scene} {below : List Frame}

namespace Spares

theorem mono {m : Nat} (h : s.Spares rounds scene below n) (hm : m ≤ n) :
    s.Spares rounds scene below m :=
  ⟨h.spine, h.hosts, by have := h.weight; omega⟩

/-! ### What code comes to -/

theorem proceed (h : s.Spares rounds scene below n) (hn : 1 ≤ n) :
    s.Spends rounds (s.proceed scene below) := by
  refine .go h.spine ?_
  have hweight := h.weight
  simp only [Affords, stackWeight_cons, Frame.weight, Scene.weight] at hweight ⊢
  omega

theorem store (h : s.Spares rounds scene below n) {pending : List (SlotName × Handle)}
    (note : Option Note) (hn : pendingWeight pending + 3 ≤ n) :
    s.Spends rounds (s.store scene below pending note) := by
  refine .go h.spine ?_
  have hweight := h.weight
  simp only [Affords, stackWeight_cons, Frame.weight, Call.weight, Scene.weight] at hweight ⊢
  omega

theorem drop (h : s.Spares rounds scene below n) {held : Handle} (hn : held.weight + 1 ≤ n) :
    s.Spends rounds (s.go scene.world (dropFirst held.entries (.code scene.code :: below))) := by
  refine .go (by simpa using h.spine) ?_
  have hweight := h.weight
  have hdrop := stackWeight_dropHandle held (.code scene.code :: below)
  simp only [Affords, stackWeight_cons, Frame.weight, Scene.weight] at hweight hdrop ⊢
  omega

theorem panic (h : s.Spares rounds scene below n) (payload : Payload) {captured : List Entry}
    (hn : entriesWeight captured + 3 ≤ n) :
    s.Spends rounds (s.panic scene below payload captured) := by
  refine .go h.spine ?_
  have hweight := h.weight
  have hdrop := dropWeight_le captured
  simp only [Affords, stackWeight_cons, Frame.weight, Scene.weight] at hweight ⊢
  omega

theorem failBuild (h : s.Spares rounds scene below n) {body : Closure} (cause : BuildError)
    (hn : body.weight ≤ n) : s.Spends rounds (s.failBuild scene below body cause) := by
  refine .go (by simpa using h.spine) ?_
  have hweight := h.weight
  have hdrop := stackWeight_dropFirst body.captured (.calling (.failBuild cause) scene.code :: below)
  simp only [Affords, stackWeight_cons, Frame.weight, Call.weight, Scene.weight,
    Closure.weight] at hweight hdrop hn ⊢
  omega

theorem depart (h : s.Spares rounds scene below n) {switch : SwitchSpec}
    (hswitch : s.switch? = some switch)
    {onTop : Option Closure} (target : ContextId) (hn : leftoverWeight onTop + 240 ≤ n) :
    s.Spends rounds (s.depart scene below target switch onTop) := by
  have hweight := h.weight
  have hafford : forall (w : World) (signal : Signal), w.weight rounds = scene.world.weight rounds ->
      signal.weight ≤ 32 ->
      s.Affords rounds w
        (.calling (.resume (s.world.hosts.resolve switch.host) onTop switch.target) scene.code ::
          below) signal.weight := by
    intro w signal hsame hsignal
    simp only [Affords, stackWeight_cons, Frame.weight, Call.weight, Scene.weight] at hweight ⊢
    omega
  unfold State.depart
  rw [h.hosts]
  cases onTop with
  | none => exact .depart hswitch h.spine (hafford _ _ rfl (Nat.le_refl 32))
  | some f => exact .depart hswitch h.spine (hafford _ _ rfl (Nat.zero_le 32))

theorem probe (h : s.Spares rounds scene below n) {purpose : ProbePurpose}
    (hprobes : s.Probes purpose) (target : ContextId) (hn : purpose.weight + 561 ≤ n) :
    s.Spends rounds (s.probe scene below target purpose.query purpose) := by
  refine .probe hprobes h.spine ?_
  have hweight := h.weight
  have hsame : (scene.world.trace (.probed target purpose.query)).weight rounds =
      scene.world.weight rounds := rfl
  simp only [Affords, stackWeight_cons, Frame.weight, Call.weight, Scene.weight, hsame] at hweight ⊢
  omega

/-! ### What code does to its slots -/

variable {scene' : Scene}

theorem take (h : s.Spares rounds scene below n) {slot : SlotName} {held : Handle}
    (htake : scene.take slot = (held, scene')) :
    s.Spares rounds scene' below (n + held.weight) where
  spine := h.spine
  hosts := by
    have hsame := Scene.hosts_take (s := scene) slot
    rw [htake] at hsame
    exact hsame.trans h.hosts
  weight := by
    have hweight := h.weight
    have htaken := scene.weight_take rounds slot
    simp only [htake] at htaken
    omega

theorem look (h : s.Spares rounds scene below n) (hrounds : rounds ≤ 100) {slot : SlotName}
    {seen : Handle} (hlook : scene.look slot = (seen, scene')) {m : Nat} (hn : m + 100 ≤ n) :
    s.Spares rounds scene' below m where
  spine := h.spine
  hosts := by
    have hsame := Scene.hosts_look (s := scene) slot
    rw [hlook] at hsame
    exact hsame.trans h.hosts
  weight := by
    have hweight := h.weight
    have hlooked := scene.weight_look hrounds slot
    simp only [hlook] at hlooked
    omega

theorem takeAll (h : s.Spares rounds scene below n) {slots : List SlotName}
    {taken : List (SlotName × Handle)} (htake : scene.takeAll slots = (taken, scene')) {m : Nat}
    (hn : m + 160 * slots.length ≤ n) :
    s.Spares rounds scene' below (m + pendingWeight taken) where
  spine := h.spine
  hosts := by
    have hsame := Scene.hosts_takeAll (s := scene) slots
    rw [htake] at hsame
    exact hsame.trans h.hosts
  weight := by
    have hweight := h.weight
    have htaken := scene.weight_takeAll rounds slots
    simp only [htake] at htaken
    omega

theorem capture (h : s.Spares rounds scene below n) {label : String} {argument : SlotName}
    {captures : List String} {moves : List SlotName} {code : List Op} {f : Closure}
    (hf : scene.capture label argument captures moves code = (f, scene')) {m : Nat}
    (hn : m + 64 * captures.length + 160 * moves.length + codeWeight code + 128 ≤ n) :
    s.Spares rounds scene' below (m + f.weight) where
  spine := h.spine
  hosts := by
    have hsame := scene.hosts_capture label argument captures moves code
    rw [hf] at hsame
    exact hsame.trans h.hosts
  weight := by
    have hweight := h.weight
    have hcapture := scene.weight_capture rounds label argument captures moves code
    simp only [hf] at hcapture
    omega

/-- The cells and the counts weigh nothing. -/
theorem world (h : s.Spares rounds scene below n) {w : World}
    (hglobals : w.globals = scene.world.globals) (hhosts : w.hosts = scene.world.hosts) :
    s.Spares rounds { scene with world := w } below n where
  spine := h.spine
  hosts := hhosts.trans h.hosts
  weight := by
    have hweight := h.weight
    simpa only [Scene.weight, World.weight, hglobals] using hweight

theorem note (h : s.Spares rounds scene below n) (note : Note) :
    s.Spares rounds (scene.note note) below n := h.world rfl rfl

theorem enter (h : s.Spares rounds scene below n) {kind : BlockKind} {code : List Op} {m : Nat}
    (hn : m + kind.weight + codeWeight code + 16 ≤ n) :
    s.Spares rounds (scene.enter kind code) below m where
  spine := h.spine
  hosts := h.hosts
  weight := by
    have hweight := h.weight
    simp only [Scene.enter, Scene.weight, Activation.weight, blocksWeight_cons, Block.weight,
      entriesWeight_nil] at hweight ⊢
    omega

theorem prepend (h : s.Spares rounds scene below n) {ops : List Op} {m : Nat}
    (hn : m + codeWeight ops ≤ n) : s.Spares rounds (scene.prepend ops) below m where
  spine := h.spine
  hosts := by
    unfold Scene.prepend
    split <;> exact h.hosts
  weight := by
    have hweight := h.weight
    unfold Scene.prepend
    split
    · omega
    · rename_i b outer hblocks
      simp only [Scene.weight, Activation.weight, hblocks, blocksWeight_cons, Block.weight,
        codeWeight_append] at hweight ⊢
      omega

theorem flow (h : s.Spares rounds scene below n) {flow : Flow} {m : Nat}
    (hn : m + flow.weight ≤ n + scene.code.flow.weight) :
    s.Spares rounds (scene.flow flow) below m where
  spine := h.spine
  hosts := h.hosts
  weight := by
    have hweight := h.weight
    simp only [Scene.flow, Scene.weight, Activation.weight] at hweight ⊢
    omega

theorem declare (h : s.Spares rounds scene below n) {e : Entry} {m : Nat} (hn : m + e.weight ≤ n) :
    s.Spares rounds (scene.declare e) below m where
  spine := h.spine
  hosts := h.hosts
  weight := by
    have hweight := h.weight
    unfold Scene.declare
    cases hblocks : scene.code.blocks with
    | nil =>
        simp only [Scene.weight, Activation.weight, hblocks, declareEntry, Option.getD_none]
          at hweight ⊢
        omega
    | cons b outer =>
        simp only [Scene.weight, Activation.weight, hblocks, declareEntry, Option.getD_some,
          blocksWeight_cons, Block.weight, entriesWeight_cons] at hweight ⊢
        omega

end Spares

/-! ## Operations -/

theorem Spares.resume (h : s.Spares rounds scene below n) {switch : SwitchSpec}
    {onTop : Option Closure} (hn : leftoverWeight onTop + 600 ≤ n)
    (hswitch : switch.checked = false -> s.switch? = some switch)
    (hprobes : switch.checked = true -> s.Probes (.check switch onTop)) :
    s.Spends rounds (s.resume scene below switch onTop) := by
  have hleft := entriesWeight_leftover onTop
  unfold State.resume
  generalize htake : scene.take switch.slot = taken
  rcases taken with ⟨held, scene'⟩
  have htaken := h.take htake
  cases hchecked : switch.checked with
  | false =>
      cases held with
      | empty => exact htaken.panic _ (by omega)
      | live target => exact htaken.depart (hswitch hchecked) target (by omega)
  | true =>
      cases held with
      | empty => exact htaken.panic _ (by omega)
      | live target =>
          refine htaken.probe (hprobes hchecked) target ?_
          simp only [ProbePurpose.weight]
          omega

theorem Spares.ask (h : s.Spares rounds scene below n) {question : Question} {slot : SlotName}
    (hn : 600 ≤ n) (hop : s.operation? = some (.ask question slot)) :
    s.Spends rounds (s.ask scene below question slot) := by
  unfold State.ask
  generalize htake : scene.take slot = taken
  rcases taken with ⟨held, scene'⟩
  have htaken := h.take htake
  cases held with
  | empty => exact htaken.panic _ (by rw [entriesWeight_nil]; omega)
  | live target =>
      refine htaken.probe (.question hop) target ?_
      simp only [ProbePurpose.weight]
      omega

theorem Spares.launch (h : s.Spares rounds scene below n) {spec : FiberSpec}
    {captures : List String} {moves : List SlotName} {body : List Op}
    (hop : s.operation? = some (.create spec captures moves body)) (slot : SlotName)
    (fiber : ContextId) {record : Record} (usable : Region) (hn : record.weight + 300 ≤ n) :
    s.Spends rounds (s.launch scene below slot fiber record usable) := by
  have hsame : ((scene.world.settle record.lease.stack fiber (usable.top - 1)).trace
      (.registering record.lease.stack)).weight rounds = scene.world.weight rounds := rfl
  refine .launch hop h.spine ?_
  have hweight := h.weight
  simp only [Affords, stackWeight_cons, Frame.weight, Call.weight, Signal.weight,
    Option.elim_some, Scene.weight, hsame] at hweight ⊢
  omega

theorem Spares.create (h : s.Spares rounds scene below n) {spec : FiberSpec} {body : Closure}
    {captures : List String} {moves : List SlotName} {code : List Op}
    (hop : s.operation? = some (.create spec captures moves code)) (hn : body.weight + 400 ≤ n) :
    s.Spends rounds (s.create scene below spec body) := by
  have hask : forall owner : Option String,
      (scene.world.askForStack spec.name owner s.kind).globals = scene.world.globals ∧
        (scene.world.askForStack spec.name owner s.kind).hosts = scene.world.hosts := by
    intro owner
    cases owner <;> exact ⟨rfl, rfl⟩
  have hreturn : forall (w : World) (owner : Option String),
      (w.returnStack owner s.kind).globals = w.globals ∧
        (w.returnStack owner s.kind).hosts = w.hosts := by
    intro w owner
    cases owner <;> exact ⟨rfl, rfl⟩
  have hasked := h.world (hask spec.allocator.label?).1 (hask spec.allocator.label?).2
  unfold State.create
  dsimp only
  split
  · exact hasked.failBuild _ (by omega)
  · rename_i stack memory hsupply
    have hlent := hasked.world (w := World.lendStack _ memory spec.allocator.label?) rfl rfl
    unfold State.place
    split
    · refine hlent.launch hop _ _ _ ?_
      simp only [Record.weight, leftoverWeight, Option.elim_some]
      omega
    · have hback := hlent.world (hreturn _ spec.allocator.label?).1
        (hreturn _ spec.allocator.label?).2
      exact hback.failBuild _ (by omega)

/-- The rounds of a loop are paid for by its operation. -/
theorem loopWeight (left : Nat) (code : List Op) :
    left * (2048 + codeWeight code) = 256 * (left * (8 + Op.workOf code)) := by
  have hround : 2048 + codeWeight code = 256 * (8 + Op.workOf code) := by
    simp only [codeWeight, Nat.mul_add]
  rw [hround, Nat.mul_left_comm]

/-- An operation is paid for by the work that is in it. -/
theorem Spares.execute {op : Op} (h : s.Spares rounds scene below (256 * op.work))
    (hrounds : rounds ≤ 100) (hop : s.operation? = some op) :
    s.Spends rounds (s.execute scene below op) := by
  cases op with
  | create spec captures moves body =>
      simp only [Op.work] at h
      simp only [State.execute]
      generalize hf : scene.capture spec.label (.own "caller") captures moves body = captured
      rcases captured with ⟨f, scene'⟩
      have hcaptured := h.capture hf (m := 400) (by simp only [codeWeight]; omega)
      exact hcaptured.create hop (by dsimp only; omega)
  | resume switch =>
      simp only [Op.work] at h
      refine h.resume (by simp [leftoverWeight]) ?_ (.plain hop)
      exact fun hchecked => by simp [switch?, hop, hchecked]
  | resumeWith switch captures moves onTop =>
      simp only [Op.work] at h
      simp only [State.execute]
      generalize hf : scene.capture (scene.code.label ++ "^") (.own "source") captures moves onTop =
        captured
      rcases captured with ⟨f, scene'⟩
      have hcaptured := h.capture hf (m := 600) (by simp only [codeWeight]; omega)
      refine hcaptured.resume ?_ (fun hchecked => ?_) (.carrying f hop)
      · simp only [leftoverWeight, Option.elim_some]
        omega
      · simp [switch?, hop, hchecked]
  | ask question slot =>
      simp only [Op.work] at h
      exact h.ask (by omega) hop
  | drop slot =>
      simp only [Op.work] at h
      simp only [State.execute]
      generalize htake : scene.take slot = taken
      rcases taken with ⟨held, scene'⟩
      exact (h.take htake).drop (by dsimp only; omega)
  | move slot target =>
      simp only [Op.work] at h
      simp only [State.execute]
      generalize htake : scene.take slot = taken
      rcases taken with ⟨held, scene'⟩
      refine (h.take htake).store _ ?_
      simp only [pendingWeight_cons, pendingWeight_nil]
      omega
  | isEmpty slot | display slot | debug slot =>
      simp only [Op.work] at h
      simp only [State.execute]
      generalize hlook : scene.look slot = looked
      rcases looked with ⟨seen, scene'⟩
      exact ((h.look hrounds hlook (m := 1) (by omega)).note _).proceed (Nat.le_refl 1)
  | compare a b =>
      simp only [Op.work] at h
      simp only [State.execute]
      generalize htake : scene.take a = taken
      rcases taken with ⟨first, scene'⟩
      have hfirst := h.take htake
      split
      · refine hfirst.store _ ?_
        simp only [pendingWeight_cons, pendingWeight_nil]
        omega
      · generalize htake' : scene'.take b = taken
        rcases taken with ⟨second, scene''⟩
        refine (hfirst.take htake').store _ ?_
        simp only [pendingWeight_cons, pendingWeight_nil]
        omega
  | collect slots =>
      simp only [Op.work] at h
      simp only [State.execute]
      generalize htake : scene.takeAll slots = taken
      rcases taken with ⟨held, scene'⟩
      exact (h.takeAll htake (m := 3) (by omega)).store _ (by dsimp only; omega)
  | guard label onDrop =>
      simp only [Op.work] at h
      have hcounted : s.Spares rounds { scene with world :=
          { scene.world with liveGuards := scene.world.liveGuards + 1 } } below _ := h.world rfl rfl
      have hdeclared := hcounted.declare (e := .guard label onDrop) (m := 1)
        (by simp only [Entry.weight, codeWeight]; omega)
      exact hdeclared.proceed (Nat.le_refl 1)
  | scope ops | attempt swallow ops =>
      simp only [Op.work] at h
      refine Spares.proceed (n := 1) (h.enter ?_) (Nat.le_refl 1)
      simp only [BlockKind.weight, codeWeight]
      omega
  | rounds count ops | whileLive slot limit ops =>
      simp only [Op.work] at h
      refine Spares.proceed (n := 1) (h.enter ?_) (Nat.le_refl 1)
      simp only [BlockKind.weight, loopWeight, codeWeight_nil]
      omega
  | leaveLoop =>
      simp only [Op.work] at h
      refine Spares.proceed (n := 1) (h.flow ?_) (Nat.le_refl 1)
      simp only [Flow.weight]
      omega
  | giveBack slot =>
      simp only [Op.work] at h
      simp only [State.execute]
      generalize htake : scene.take slot = taken
      rcases taken with ⟨held, scene'⟩
      refine Spares.proceed (n := 1) ((h.take htake).flow ?_) (Nat.le_refl 1)
      simp only [Flow.weight]
      omega
  | ifEmpty slot yes no =>
      simp only [Op.work] at h
      simp only [State.execute]
      generalize hlook : scene.look slot = looked
      rcases looked with ⟨seen, scene'⟩
      have hlooked := h.look hrounds hlook (m := 1 + codeWeight yes + codeWeight no)
        (by simp only [codeWeight]; omega)
      refine Spares.proceed (n := 1) (hlooked.prepend ?_) (Nat.le_refl 1)
      dsimp only
      split <;> omega
  | ifCell cell atLeast yes no =>
      simp only [Op.work] at h
      refine Spares.proceed (n := 1) (h.prepend ?_) (Nat.le_refl 1)
      simp only [codeWeight]
      split <;> omega
  | panic payload =>
      simp only [Op.work] at h
      exact h.panic payload (by rw [entriesWeight_nil]; omega)
  | say message | whereAmI | printCell cell | compareHosts a b | checkAffinity binding host
  | currentHost | defaultAffinity | describeStacks settings =>
      simp only [Op.work] at h
      exact (h.note _).proceed (by omega)
  | setCell cell source | addCell cell source =>
      simp only [Op.work] at h
      exact Spares.proceed (h.world rfl rfl) (by omega)

end State

end Fibers
