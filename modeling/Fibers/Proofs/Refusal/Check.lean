import Fibers.Proofs.Lending
import Fibers.Proofs.Refusal.Drop
import Fibers.Proofs.Termination

/-!
# Checked switches

A switch with a checked affinity is first of all a question to the context that it leads to.  Two steps
lead there and back, and in a third one the switch is made or refused.  A switch that is made goes on as
it would have done without the check; only the trace tells of the difference.
-/

namespace Fibers

/-! ## Runs without their trace -/

theorem World.untraced_onto (w : World) (base : List LogEntry) :
    (w.onto base).untraced = w.untraced ++ base.filter fun e => ¬ e.isTrace :=
  List.filter_append ..

def State.untraced (s : State) : State :=
  { s with world := { s.world with log := s.world.untraced } }

/-- A configuration without what the switching itself has logged. -/
def Config.untraced : Config -> Config
  | active s => .active s.untraced
  | halted outcome w => .halted outcome { w with log := w.untraced }

namespace Config

/-- A configuration as it would be if nothing had been logged so far. -/
def unlogged : Config -> Config
  | active s => .active { s with world := { s.world with log := [] } }
  | halted outcome w => .halted outcome { w with log := [] }

theorem unlogged_onto (x : Config) : x.unlogged.onto x.world.log = x := by
  cases x <;> rfl

theorem untraced_onto (x : Config) (base : List LogEntry) :
    (x.onto base).untraced = x.untraced.onto (base.filter fun e => ¬ e.isTrace) := by
  cases x <;> simp only [onto, untraced, State.onto, State.untraced, World.untraced_onto] <;> rfl

theorem untraced_atop (x : Config) (c : ContextId) (base : List LogEntry) (low : List Frame) :
    (x.atop c base low).untraced = x.untraced.atop c (base.filter fun e => ¬ e.isTrace) low := by
  cases x <;> simp only [atop, untraced, State.atop, State.untraced, World.untraced_onto] <;> rfl

theorem unlogged_untraced (x : Config) : x.untraced.unlogged = x.unlogged := by
  cases x <;> rfl

theorem log_untraced (x : Config) : x.untraced.world.log = x.world.untraced := by
  cases x <;> rfl

/-- Runs that differ in their trace only go on like that. -/
theorem after_untraced {x y : Config} (h : x.untraced = y.untraced) (n : Nat) :
    (after n x).untraced = (after n y).untraced := by
  have hunlogged : x.unlogged = y.unlogged := by
    rw [<- unlogged_untraced, h, unlogged_untraced]
  have hlog : x.world.untraced = y.world.untraced := by
    rw [<- log_untraced, h, log_untraced]
  rw [<- x.unlogged_onto, <- y.unlogged_onto, hunlogged, after_onto, after_onto, untraced_onto,
    untraced_onto]
  exact congrArg (onto · _) hlog

end Config

/-! ## Switches and functions -/

/-- A function to go along with a switch: the guards it makes, the slots it takes, and its code. -/
structure FunctionSpec where
  captures : List String
  moves : List SlotName
  code : List Op

namespace SwitchSpec

/-- The operation that makes a switch. -/
def operation (switch : SwitchSpec) : Option FunctionSpec -> Op
  | none => .resume switch
  | some f => .resumeWith switch f.captures f.moves f.code

def unchecked (switch : SwitchSpec) : SwitchSpec := { switch with checked := false }

/-- The frames of a call that is refused, and has yet to return. -/
def refusing (switch : SwitchSpec) (r : Refusal) (a : Activation) (below : List Frame) :
    List Frame :=
  .calling (.refuse r switch.slot switch.onRefusal) a :: below

/-- The frames of code that puts a handle back into its slot, or drops it. -/
def restoring (switch : SwitchSpec) (c : ContextId) (a : Activation) (below : List Frame) :
    List Frame :=
  match switch.onRefusal with
  | .keep => .calling (.store [(switch.slot, .live c)] none) a :: below
  | .discard => dropFirst (Handle.live c).entries (.code a :: below)

end SwitchSpec

namespace Scene

/-- Makes the function that is to go along with a switch. -/
def make (s : Scene) : Option FunctionSpec -> Option Closure × Scene
  | none => (none, s)
  | some f =>
      let (g, s) := s.capture (s.code.label ++ "^") (.own "source") f.captures f.moves f.code
      (some g, s)

theorem world_take (s : Scene) (slot : SlotName) :
    (s.take slot).2.world = { s.world with globals := (s.take slot).2.world.globals } := by
  cases slot with
  | own name => rfl
  | shared name => cases hx : exchangeShared name .empty s.world.globals <;> simp [take, World.take, hx]

theorem world_takeAll (s : Scene) (slots : List SlotName) :
    (s.takeAll slots).2.world = { s.world with globals := (s.takeAll slots).2.world.globals } := by
  induction slots generalizing s with
  | nil => rfl
  | cons slot rest ih =>
      simp only [takeAll]
      rw [ih, world_take]

/-- A function is made of what is in some slots, and of new guards. -/
theorem world_make (s : Scene) (f : Option FunctionSpec) :
    (s.make f).2.world =
      { s.world with
        globals := (s.make f).2.world.globals
        liveGuards := (s.make f).2.world.liveGuards } := by
  cases f with
  | none => rfl
  | some f =>
      simp only [make, capture]
      rw [world_takeAll]

theorem names_takeAll (s : Scene) (slots : List SlotName) :
    (s.takeAll slots).1.map Prod.fst = slots := by
  induction slots generalizing s with
  | nil => rfl
  | cons slot rest ih => simp only [takeAll, List.map_cons, ih]

theorem identity_make (s : Scene) (f : Option FunctionSpec) :
    (s.make f).2.code.identity = s.code.identity := by
  cases f with
  | none => rfl
  | some f => simp [make]

theorem plain_make (s : Scene) (f : Option FunctionSpec) :
    (Closure.leftover (s.make f).1).all Entry.isPlain = true := by
  cases f with
  | none => rfl
  | some f => exact capture_plain ..

end Scene

/-! ## Other operations in place of the next one -/

def Activation.instead (a : Activation) (ops : List Op) : Activation :=
  match a.blocks with
  | b :: outer => { a with blocks := { b with code := ops ++ b.code.tail } :: outer }
  | [] => a

namespace State

def instead (s : State) (ops : List Op) : State :=
  match s.stack with
  | .code a :: below => { s with stack := .code (a.instead ops) :: below }
  | _ => s

/-- The state in which running code has been told something. -/
def told (s : State) (event : TraceEvent) (n : Note) : State :=
  match s.stack with
  | .code a :: _ => { s with world := (s.world.trace event).note a.label n }
  | _ => s

variable {s s' : State} {lost : List ContextId} {a : Activation} {below : List Frame} {op op' : Op}

theorem instead_eq (hstack : s.stack = .code a :: below) (ops : List Op) :
    s.instead ops = { s with stack := .code (a.instead ops) :: below } := by
  simp only [instead, hstack]

theorem advance_instead (op : Op) : (a.instead [op]).advance = a.advance := by
  unfold Activation.instead Activation.advance
  cases hblocks : a.blocks <;> simp [hblocks]

theorem instead_nil : a.instead [] = a.advance := by
  unfold Activation.instead Activation.advance
  cases hblocks : a.blocks <;> simp

theorem label_instead (ops : List Op) : (a.instead ops).label = a.label := by
  unfold Activation.instead
  split <;> rfl

theorem holdings_instead (ops : List Op) : (a.instead ops).holdings = a.holdings := by
  unfold Activation.instead
  split
  · rename_i b outer hblocks
    simp [Activation.holdings, Block.holdings, hblocks]
  · rfl

theorem operation?_instead (h : s.operation? = some op) :
    (s.instead [op']).operation? = some op' := by
  rcases operation?_eq_some h with ⟨a, below, b, outer, rest, hrun, hstack, hflow, hblocks, hcode⟩
  rw [instead_eq hstack]
  simp [operation?, hrun, Activation.instead, hblocks, hflow]

/-- Whatever code is about to do, its state is as sound. -/
theorem Sound.instead (h : s.Sound lost) (hop : s.operation? = some op) (ops : List Op) :
    (s.instead ops).Sound lost := by
  rcases operation?_eq_some hop with ⟨a, below, b, outer, rest, hrun, hstack, -⟩
  have hheld : (s.instead ops).holdings = s.holdings := by
    simp only [instead_eq hstack, holdings, pool, hstack, stackHoldings_cons, Frame.holdings,
      holdings_instead]
  have hlease : (s.instead ops).leaseAt = s.leaseAt := by
    refine leaseAt_congr ?_ ?_ ?_
    all_goals simp only [instead_eq hstack, lease?, hrun, hstack, leaseOf]
  have hstands := h.stands
  simp only [Stands, hrun, hstack] at hstands
  constructor
  · rw [instead_eq hstack]
    exact h.keys
  · rw [instead_eq hstack]
    exact h.listed
  · rw [instead_eq hstack]
    simp only [Stands, hrun]
    exact hstands
  · rw [instead_eq hstack]
    exact h.parked
  · intro need c
    have hbalance := h.balance need c
    rw [<- hheld] at hbalance
    rw [hbalance, instead_eq hstack]
    rfl
  · rw [hlease, instead_eq hstack]
    exact h.housed
  · rw [instead_eq hstack]
    exact h.numbers

/-- A question in place of the next operation is answered, and nothing else has changed. -/
theorem Sound.told {slot : SlotName} {c : ContextId} (h : s.Sound lost) (hop : s.operation? = some op)
    (hlive : s.handleIn slot = .live c) (question : Question) :
    Config.after 5 (.active (s.instead [.ask question slot])) =
      .active ((s.instead []).told (.probed c question.query) (s.answerTo question c)) := by
  rcases operation?_eq_some hop with ⟨a, below, b, outer, rest, -, hstack, -⟩
  have hhandle : (s.instead [.ask question slot]).handleIn slot = .live c := by
    simp only [handleIn, hstack] at hlive
    simp only [handleIn, instead_eq hstack, advance_instead, hlive]
  refine ((h.instead hop _).bounce (operation?_instead hop) hhandle).trans ?_
  simp only [asked, State.told, instead_eq hstack, advance_instead, instead_nil, label_instead,
    Activation.label_advance]
  cases question <;> rfl

/-! ## Three steps -/

/--
Running code is about to make a switch with a checked affinity: the function `g` is made for it, and
then the handle of `c` is taken out of its slot.
-/
structure Attempts (s : State) (switch : SwitchSpec) (f : Option FunctionSpec) (a : Activation)
    (below : List Frame) (g : Option Closure) (c : ContextId) (scene : Scene) : Prop where
  stack : s.stack = .code a :: below
  operation : s.operation? = some (switch.operation f)
  checked : switch.checked = true
  made : ((Scene.mk s.world a.advance).make f).1 = g
  taken : ((Scene.mk s.world a.advance).make f).2.take switch.slot = (.live c, scene)

variable {switch : SwitchSpec} {f : Option FunctionSpec} {g : Option Closure} {c : ContextId}
  {scene : Scene} {r : Refusal}

/-- A step that transfers control finds the context that it leads to. -/
theorem Sound.step_of_transfer {w : World} {stack : List Frame} {signal : Signal} (h : s.Sound lost)
    (htransfer : s.step = s.transfer w stack c signal) :
    c ≠ s.running ∧ exists there, s.parked? c = some there ∧ there ≠ [] ∧
      s.step = .active (s.hop w stack c there signal) := by
  cases hstep : s.step with
  | halted outcome w' =>
      rw [hstep] at htransfer
      have hstuck : outcome = .stuck := by
        unfold transfer at htransfer
        split at htransfer
        · cases htransfer
        · cases htransfer
          rfl
      exact absurd (hstuck ▸ hstep) (h.orderly.ruled w')
  | active s' =>
      rcases transfer_eq_active (htransfer.symm.trans hstep) with ⟨there, hthere, hnil, rfl⟩
      refine ⟨?_, there, hthere, hnil, rfl⟩
      rintro rfl
      cases h.listed.symm.trans hthere
      exact hnil rfl

/-- What a switch in earnest lands with. -/
def departure : Option Closure -> Signal
  | none => .message .handover
  | some _ => .onTop

theorem depart_eq_hop (scene : Scene) (below : List Frame) (switch : SwitchSpec)
    (g : Option Closure) {there : List Frame} (hthere : s.parked? c = some there)
    (hnil : there ≠ []) :
    exists e, forall w, w.hosts = scene.world.hosts -> s.depart ⟨w, scene.code⟩ below c switch g =
      .active (s.hop (w.trace e)
        (.calling (.resume (scene.world.hosts.resolve switch.host) g switch.target) scene.code ::
          below) c there (departure g)) := by
  cases g with
  | none =>
      refine ⟨.resuming c (scene.world.hosts.resolve switch.host), fun w hhosts => ?_⟩
      rw [<- hhosts]
      exact transfer_eq_hop hthere hnil
  | some g =>
      refine ⟨.resumingOnTop c (scene.world.hosts.resolve switch.host), fun w hhosts => ?_⟩
      rw [<- hhosts]
      exact transfer_eq_hop hthere hnil

/-- What a refused switch returns: the handle, the affinity, and the host it was tried from. -/
def refusal (s : State) (switch : SwitchSpec) (c : ContextId) : Refusal :=
  ⟨.live c, s.bindingOf c, s.world.hosts.resolve switch.host⟩

theorem execute_operation (s : State) (scene : Scene) (below : List Frame) (switch : SwitchSpec)
    (f : Option FunctionSpec) : s.execute scene below (switch.operation f) =
      s.resume (scene.make f).2 below switch (scene.make f).1 := by
  cases f <;> rfl

namespace Attempts

/-- Of all that is shared nothing has changed but slots, and the count of the guards. -/
theorem world (h : s.Attempts switch f a below g c scene) :
    scene.world =
      { s.world with globals := scene.world.globals, liveGuards := scene.world.liveGuards } := by
  have htake := ((Scene.mk s.world a.advance).make f).2.world_take switch.slot
  rw [h.taken, Scene.world_make] at htake
  dsimp only at htake
  rw [htake]

theorem hosts (h : s.Attempts switch f a below g c scene) : scene.world.hosts = s.world.hosts := by
  rw [h.world]

theorem label (h : s.Attempts switch f a below g c scene) : scene.code.label = a.label := by
  have htake := ((Scene.mk s.world a.advance).make f).2.identity_take switch.slot
  rw [h.taken, Scene.identity_make] at htake
  exact (congrArg Prod.fst htake).trans (Activation.label_advance a)

theorem plain (h : s.Attempts switch f a below g c scene) :
    (Closure.leftover g).all Entry.isPlain = true :=
  h.made ▸ Scene.plain_make _ f

theorem step (h : s.Attempts switch f a below g c scene) :
    s.step = s.probe scene below c .affinity (.check switch g) := by
  rw [step_of_operation h.stack h.operation, execute_operation]
  simp only [resume, h.taken, h.checked, h.made]

/-- The context of the handle is parked where it can be resumed. -/
theorem rests (h : s.Attempts switch f a below g c scene) (hsound : s.Sound lost) :
    c ≠ s.running ∧ exists there, s.parked? c = some there ∧ there ≠ [] ∧ AtRest there := by
  rcases hsound.step_of_transfer h.step with ⟨hne, there, hthere, hnil, hstep⟩
  have hafter := (hsound.move hstep).2
  refine ⟨hne, there, hthere, hnil, ?_⟩
  cases hafter.arrives rfl with
  | query hparked hquery hrest => exact hrest

/-- After two steps the affinity is told. -/
theorem answered (h : s.Attempts switch f a below g c scene) (hsound : s.Sound lost) :
    Config.after 2 (.active s) = .active
      { s with
        world := scene.world.trace (.probed c .affinity)
        stack := .calling (.probe .affinity (some (.affinity (s.bindingOf c))) (.check switch g))
          scene.code :: below
        control := .landed c (.message .handover) } := by
  rcases h.rests hsound with ⟨hne, there, hthere, hnil, hrest⟩
  have hkind : (scene.world.trace (.probed c .affinity)).kindOf c = s.world.kindOf c := by
    rw [h.world]
    rfl
  have hleaves : s.step = .active (s.hop (scene.world.trace (.probed c .affinity))
      (.calling (.probe .affinity none (.check switch g)) scene.code :: below) c there
      (.message .query)) :=
    h.step.trans (transfer_eq_hop hthere hnil)
  have hreturns := hsound.step_of_probe hne hthere hrest hkind .affinity (.check switch g)
    scene.code below
  calc Config.after 2 (.active s)
    _ = Config.after 1 s.step := rfl
    _ = Config.after 0 (State.step (s.hop (scene.world.trace (.probed c .affinity))
          (.calling (.probe .affinity none (.check switch g)) scene.code :: below) c there
          (.message .query))) := by rw [hleaves]; rfl
    _ = _ := by rw [hreturns]; rfl

/-- After three steps the switch is decided. -/
theorem concludes (h : s.Attempts switch f a below g c scene) (hsound : s.Sound lost) :
    Config.after 3 (.active s) =
      s.conclude ⟨scene.world.trace (.probed c .affinity), scene.code⟩ below c
        (.affinity (s.bindingOf c)) (.check switch g) := by
  rw [Config.after_succ, h.answered hsound]
  rfl

/-! ### Granted -/

/-- A switch that is allowed is made. -/
theorem departs (h : s.Attempts switch f a below g c scene) (hsound : s.Sound lost)
    (hallowed : (s.bindingOf c).allows (s.world.hosts.resolve switch.host) = true) :
    Config.after 3 (.active s) =
      s.depart ⟨scene.world.trace (.probed c .affinity), scene.code⟩ below c switch g := by
  rw [<- h.hosts] at hallowed
  exact (h.concludes hsound).trans (if_pos hallowed)

/-- Without the check it is made at once. -/
theorem departs_unchecked (h : s.Attempts switch f a below g c scene) :
    Config.after 1 (.active (s.instead [switch.unchecked.operation f])) =
      s.depart scene below c switch g := by
  have hop : (s.instead [_]).operation? = some (switch.unchecked.operation f) :=
    operation?_instead h.operation
  rw [instead_eq h.stack] at hop ⊢
  have hstep := step_of_operation rfl hop
  rw [advance_instead, execute_operation] at hstep
  simp only [resume, SwitchSpec.unchecked, h.taken, h.made] at hstep
  cases g <;> exact hstep

/-- From then on the run is that of the switch without the check. -/
theorem granted (h : s.Attempts switch f a below g c scene) (hsound : s.Sound lost)
    (hallowed : (s.bindingOf c).allows (s.world.hosts.resolve switch.host) = true) :
    (exists t, Config.after 3 (.active s) = .active t ∧ t.running = c ∧
      t.control = .landed s.running (departure g)) ∧
    forall n, (Config.after (3 + n) (.active s)).untraced =
      (Config.after (1 + n) (.active (s.instead [switch.unchecked.operation f]))).untraced := by
  rcases h.rests hsound with ⟨-, there, hthere, hnil, -⟩
  rcases depart_eq_hop scene below switch g hthere hnil with ⟨e, hdepart⟩
  have hchecked := (h.departs hsound hallowed).trans (hdepart _ rfl)
  have hunchecked := h.departs_unchecked.trans (hdepart _ rfl)
  refine ⟨⟨_, hchecked, rfl, rfl⟩, fun n => ?_⟩
  rw [Config.after_add, Config.after_add, hchecked, hunchecked]
  refine Config.after_untraced ?_ n
  simp [Config.untraced, untraced, hop, World.untraced, World.trace, World.report,
    LogEntry.isTrace]

/-! ### Refused -/

/-- A switch that is not allowed is refused, and the function that should have run is dropped. -/
theorem refuses (h : s.Attempts switch f a below g c scene) (hsound : s.Sound lost)
    (hrefused : (s.bindingOf c).allows (s.world.hosts.resolve switch.host) = false) :
    Config.after 3 (.active s) =
      s.go ((scene.world.trace (.probed c .affinity)).trace
          (.refusing (s.world.hosts.resolve switch.host) (s.bindingOf c)))
        (dropFirst (Closure.leftover g) (switch.refusing (s.refusal switch c) scene.code below)) := by
  rw [SwitchSpec.refusing, refusal]
  rw [<- h.hosts] at hrefused ⊢
  exact (h.concludes hsound).trans (if_neg (Bool.eq_false_iff.mp hrefused))

end Attempts

/-- Once nothing is left to drop, a refused call returns, and its handle goes where it should. -/
theorem step_refusing {k : State} (hrun : k.control = .run) (hhandle : r.handle = .live c)
    (base : List LogEntry) :
    (k.above base (switch.refusing r a below)).step =
      .active { k.above base (switch.restoring c a below) with
        world := (k.world.onto base).note a.label (.refused r) } := by
  simp only [above, SwitchSpec.refusing, SwitchSpec.restoring, step, hrun, run, runCall, hhandle]
  cases switch.onRefusal <;> rfl

end State

end Fibers
