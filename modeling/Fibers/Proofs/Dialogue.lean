import Fibers.Proofs.Probe.Transparent
import Fibers.Proofs.Relay
import Fibers.Proofs.Writing

/-!
# A fiber and its resumer

A fiber that resumes its caller between the parts of its body, and a main program that resumes the
fiber between the parts of its own code, take turns.  Where all these parts only write, the run has
the log and the cells of one straight line of code, in which the parts follow each other.

Each round trip goes through two switches, with a handle made and used up in either direction; the
last one ends with the fiber.
-/

namespace Fibers

/-! ## Dialogues -/

/-- How a switch is made, apart from the slot that its handle is in before and after. -/
structure Manner where
  checked : Bool
  host : Option String
  onRefusal : OnRefusal

def Manner.switch (m : Manner) (slot : SlotName) : SwitchSpec :=
  ⟨slot, m.checked, m.host, slot, m.onRefusal⟩

/--
What is done in turn: the main program resumes a fiber, which does its part and resumes the main
program, which does its own; and so on, until the fiber comes to its end instead.
-/
inductive Dialogue where
  | last (there : Manner) (fiber main : List Op)
  | more (there : Manner) (fiber : List Op) (back : Manner) (main : List Op) (rest : Dialogue)

/-- The slot in which the body of a fiber has the handle of its resumer. -/
def callerSlot : SlotName := .own "caller"

namespace Dialogue

/-- The code of the main program, from its first switch on. -/
def mainCode (slot : SlotName) : Dialogue -> List Op
  | last there _ main => .resume (there.switch slot) :: main
  | more there _ _ main rest => .resume (there.switch slot) :: (main ++ rest.mainCode slot)

/-- The body of the fiber. -/
def fiberCode : Dialogue -> List Op
  | last _ fiber _ => fiber
  | more _ fiber back _ rest => fiber ++ .resume (back.switch callerSlot) :: rest.fiberCode

/-- Nothing but the switches does more than write. -/
def allWriting : Dialogue -> Bool
  | last _ fiber main => Op.allWriting fiber && Op.allWriting main
  | more _ fiber _ main rest => Op.allWriting fiber && Op.allWriting main && rest.allWriting

/-- All switches are made from the host of the program. -/
def OnOwnHost (hosts : HostTable) : Dialogue -> Prop
  | last there _ _ => hosts.resolve there.host = hosts.self
  | more there _ back _ rest =>
      hosts.resolve there.host = hosts.self ∧ hosts.resolve back.host = hosts.self ∧
        rest.OnOwnHost hosts

/--
The straight line: each part writes under the label of its context, and each switch that returns is
noted, with a handle of the other context as long as that is there.
-/
def tell (label : String) (fiber : ContextId) : Dialogue -> World -> World
  | last _ ops main, w =>
      let w := Op.writeAll label .fiber ops w
      let w := w.note "main" (.resumed .empty)
      Op.writeAll "main" .native main w
  | more _ ops _ main rest, w =>
      let w := Op.writeAll label .fiber ops w
      let w := w.note "main" (.resumed (.live fiber))
      let w := Op.writeAll "main" .native main w
      let w := w.note label (.resumed (.live mainContext))
      rest.tell label fiber w

end Dialogue

/-- The program that makes a fiber, does the first part of its own code, and enters the dialogue. -/
def Program.ofDialogue (hosts : List (String × HostSource)) (spec : FiberSpec) (first : List Op)
    (d : Dialogue) : Program :=
  ⟨hosts, .create spec [] [] d.fiberCode :: (first ++ d.mainCode spec.slot)⟩

/-! ## The slot of the fiber's handle -/

namespace SlotName

/-- What running code has declared if it has a handle in a slot, and nothing else. -/
def entries (slot : SlotName) (h : Handle) : List Entry :=
  match slot with
  | own _ => [.slot slot h]
  | shared _ => []

/-- The shared slots in which nothing but the handle in a slot can be found. -/
def globals (slot : SlotName) (h : Handle) : List (String × Handle) :=
  match slot with
  | own _ => []
  | shared name => [(name, h)]

variable {w : World} {h : Handle}

/-- Running code with a handle in a slot, and nothing else. -/
def holder (slot : SlotName) (label : String) (role : Role) (code : List Op) (h : Handle) :
    Activation :=
  ⟨label, role, [⟨.body, code, slot.entries h⟩], .onward⟩

theorem take_holder (slot : SlotName) (label : String) (role : Role) (code : List Op)
    (hw : w.globals = slot.globals h) :
    (Scene.mk w (slot.holder label role code h)).take slot =
      (h, ⟨{ w with globals := slot.globals .empty }, slot.holder label role code .empty⟩) := by
  cases slot with
  | own name =>
      have hsame : { w with globals := [] } = w := by rw [<- show w.globals = [] from hw]
      simp [Scene.take, Activation.take, holder, entries, globals, exchangeBlock, exchangeEntry,
        hsame]
  | shared name =>
      have hglobals : w.globals = [(name, h)] := hw
      simp [Scene.take, World.take, holder, entries, globals, hglobals, exchangeShared]

theorem put_holder (slot : SlotName) (label : String) (role : Role) (code : List Op) (h : Handle)
    (hw : w.globals = slot.globals .empty) :
    (Scene.mk w (slot.holder label role code .empty)).put slot h =
      (.empty, ⟨{ w with globals := slot.globals h }, slot.holder label role code h⟩) := by
  cases slot with
  | own name =>
      have hsame : { w with globals := [] } = w := by rw [<- show w.globals = [] from hw]
      simp [Scene.put, Activation.put, holder, entries, globals, exchangeBlock, exchangeEntry,
        hsame]
  | shared name =>
      have hglobals : w.globals = [(name, .empty)] := hw
      simp [Scene.put, World.put, holder, entries, globals, hglobals, exchangeShared]

/-- A slot that is not there yet is declared when a handle is put there. -/
theorem put_new (slot : SlotName) (label : String) (role : Role) (code : List Op) (h : Handle)
    (hw : w.globals = []) :
    (Scene.mk w ⟨label, role, [⟨.body, code, []⟩], .onward⟩).put slot h =
      (.empty, ⟨{ w with globals := slot.globals h }, slot.holder label role code h⟩) := by
  cases slot with
  | own name =>
      have hsame : { w with globals := [] } = w := by rw [<- hw]
      simp [Scene.put, Activation.put, holder, entries, globals, exchangeBlock, exchangeEntry,
        declareEntry, hsame]
  | shared name =>
      simp [Scene.put, World.put, holder, entries, globals, hw, exchangeShared]

end SlotName

/-! ## Worlds -/

theorem World.SameButTrace.refl (w : World) : w.SameButTrace w := ⟨rfl, rfl⟩

theorem World.SameButTrace.trace {w w' : World} (h : w.SameButTrace w') (e : TraceEvent) :
    w.SameButTrace (w'.trace e) := by
  refine ⟨h.1.report _, ?_⟩
  rw [<- h.2]
  simp [World.untraced, World.trace, World.report, LogEntry.isTrace]

theorem World.Written.of_sameButTrace {w w' : World} (h : w.SameButTrace w') : w.Written w' := by
  rw [World.Written, h.1]

namespace World.Tells

variable {v w w' : World}

theorem exchange (h : v.Tells w) (globals : List (String × Handle)) :
    v.Tells { w with globals := globals } :=
  ⟨h.hosts, h.cells, h.guards, h.lent, h.log⟩

theorem register (h : v.Tells w) (registry : Registry) :
    v.Tells { w with registry := registry } :=
  ⟨h.hosts, h.cells, h.guards, h.lent, h.log⟩

theorem of_sameButTrace (h : v.Tells w) (hsame : w.SameButTrace w') : v.Tells w' := by
  have hw : w' = { w with log := w'.log } := hsame.1
  rw [hw]
  exact ⟨h.hosts, h.cells, h.guards, h.lent, hsame.2.trans h.log⟩

end World.Tells

/-! ## Switches that are let through -/

namespace State

variable {s t : State} {lost : List ContextId} {c source : ContextId} {switch : SwitchSpec}
  {a : Activation} {below there : List Frame} {scene : Scene}

/-- A switch to a context that is not bound to another host is made. -/
theorem Sound.resumes (h : s.Sound lost) (hop : s.operation? = some (.resume switch))
    (hstack : s.stack = .code a :: below)
    (htaken : (Scene.mk s.world a.advance).take switch.slot = (.live c, scene))
    (hallowed : (s.bindingOf c).allows (s.world.hosts.resolve switch.host) = true) :
    exists there w, s.parked? c = some there ∧ c ≠ s.running ∧ scene.world.SameButTrace w ∧
      (Config.active s).ComesTo (.active (s.hop w
        (.calling (.resume (s.world.hosts.resolve switch.host) none switch.target) scene.code ::
          below) c there (.message .handover))) := by
  rcases h.parked_of_slot hstack htaken with ⟨hne, there, hthere, hrest⟩
  have hhosts : scene.world.hosts = s.world.hosts := by
    have htakes := (Scene.mk s.world a.advance).hosts_take switch.slot
    rwa [htaken] at htakes
  have hdeparts : forall w, w.hosts = s.world.hosts ->
      s.depart ⟨w, scene.code⟩ below c switch none = .active (s.hop
        (w.trace (.resuming c (s.world.hosts.resolve switch.host)))
        (.calling (.resume (s.world.hosts.resolve switch.host) none switch.target) scene.code ::
          below) c there (.message .handover)) := by
    intro w hw
    rw [<- hw]
    exact transfer_eq_hop hthere hrest.ne_nil
  have hsame := (World.SameButTrace.refl scene.world).trace
  cases hchecked : switch.checked with
  | false =>
      refine ⟨there, _, hthere, hne, hsame (.resuming c (s.world.hosts.resolve switch.host)), 1, ?_⟩
      rw [<- hdeparts scene.world hhosts]
      change s.step = _
      rw [step_of_operation hstack hop]
      simp only [execute, resume, htaken, hchecked]
  | true =>
      have hattempts : s.Attempts switch none a below none c scene :=
        ⟨hstack, hop, hchecked, rfl, htaken⟩
      refine ⟨there, _, hthere, hne, (hsame (.probed c .affinity)).trace
        (.resuming c (s.world.hosts.resolve switch.host)), 3, ?_⟩
      rw [hattempts.departs h hallowed]
      exact hdeparts _ hhosts

/-- A handle goes into a slot that has none, and the code goes on. -/
theorem stored {target : SlotName} {handle : Handle} {w : World} {a' : Activation}
    (hrun : s.control = .run)
    (hstack : s.stack = .calling (.store [(target, handle)] none) a :: below)
    (hput : (Scene.mk s.world a).put target handle = (.empty, ⟨w, a'⟩)) :
    Config.after 2 (.active s) = s.go w (.code a' :: below) := by
  have hputs : s.step = s.go w (.calling (.store [] none) a' :: below) := by
    simp only [step, hrun, run, hstack, runCall, hput]
    rfl
  change Config.after 1 s.step = _
  rw [hputs]
  rfl

/-- A context that waits in a switch notes what has come back, and goes on. -/
theorem delivered {host : Host} {target : SlotName} {message : Message} {handle : Handle} {w : World}
    {a' : Activation} (hcontrol : s.control = .landed source (.message message))
    (hstack : s.stack = .calling (.resume host none target) a :: below)
    (hmessage : message = .handover ∧ handle = .live source ∨
      message = .farewell ∧ handle = .empty)
    (hput : (Scene.mk (s.world.note a.label (.resumed handle)) a).put target handle =
      (.empty, ⟨w, a'⟩)) :
    (Config.active s).ComesTo (s.go w (.code a' :: below)) := by
  have hstep : s.step = s.deliver handle none target a below := by
    rcases hmessage with ⟨rfl, rfl⟩ | ⟨rfl, rfl⟩ <;>
      simp only [step, hcontrol, land, receive, hstack]
  refine ⟨3, ?_⟩
  change Config.after 2 s.step = _
  rw [hstep]
  exact stored rfl rfl hput

/-! ## Whose turn it is -/

/-- The stack of the main program, with its code in one block and a handle in one slot. -/
def mainStack (slot : SlotName) (code : List Op) (h : Handle) : List Frame :=
  [.code (slot.holder "main" .program code h), .root .program]

/-- The stack of the main program while it waits for what it has resumed. -/
def waitingStack (host : Host) (slot : SlotName) (code : List Op) : List Frame :=
  [.calling (.resume host none slot) (slot.holder "main" .program code .empty), .root .program]

/-- The stack of a fiber that runs its body. -/
def fiberStack (label : String) (lease : Lease) (code : List Op) (h : Handle) : List Frame :=
  [.code (callerSlot.holder label (.called callerSlot) code h), .base (.busy lease)]

/--
The stack of a fiber that can be resumed from a host, with what it notes when it is, and the code
that it then goes on with.
-/
inductive Ready (label : String) (lease : Lease) (host : Host) :
    (World -> World) -> List Op -> List Frame -> Prop where
  | idle (code : List Op) :
      Ready label lease host id code [.base (.idle ⟨lease, some ⟨label, [], callerSlot, code⟩⟩)]
  | waiting (code : List Op) :
      Ready label lease host (fun w => w.note label (.resumed (.live mainContext))) code
        [.calling (.resume host none callerSlot) (callerSlot.holder label (.called callerSlot) code .empty),
          .base (.busy lease)]

/-- A fiber that is ready may be resumed from the host. -/
theorem Ready.allows {label : String} {lease : Lease} {host : Host} {opening : World -> World}
    {code : List Op} (h : Ready label lease host opening code there) :
    (bindingIn there).allows host = true := by
  cases h with
  | idle => rfl
  | waiting => exact decide_eq_true rfl

/-- What a fiber notes when it is resumed has no effect on the hosts. -/
theorem Ready.hosts {label : String} {lease : Lease} {host : Host} {opening : World -> World}
    {code : List Op} (h : Ready label lease host opening code there) (w : World) :
    (opening w).hosts = w.hosts := by
  cases h <;> rfl

/-- The main program runs, and has the handle of a fiber that is ready. -/
structure MainTurn (s : State) (slot : SlotName) (label : String) (lease : Lease) (fiber : ContextId)
    (opening : World -> World) (main code : List Op) (told : World) : Prop where
  running : s.running = mainContext
  control : s.control = .run
  stack : s.stack = mainStack slot main (.live fiber)
  globals : s.world.globals = slot.globals (.live fiber)
  ready : exists there, s.parked? fiber = some there ∧
    Ready label lease s.world.hosts.self opening code there
  tells : told.Tells s.world

/-- The fiber runs, and has the handle of the main program, which waits for it. -/
structure FiberTurn (s : State) (slot : SlotName) (label : String) (lease : Lease)
    (fiber : ContextId) (main code : List Op) (told : World) : Prop where
  running : s.running = fiber
  control : s.control = .run
  stack : s.stack = fiberStack label lease code (.live mainContext)
  globals : s.world.globals = slot.globals .empty
  waits : s.parked? mainContext = some (waitingStack s.world.hosts.self slot main)
  tells : told.Tells s.world

/-- The main program runs, and the fiber is gone. -/
structure LastTurn (s : State) (slot : SlotName) (main : List Op) (told : World) : Prop where
  running : s.running = mainContext
  control : s.control = .run
  stack : s.stack = mainStack slot main .empty
  globals : s.world.globals = slot.globals .empty
  tells : told.Tells s.world

variable {slot : SlotName} {label : String} {lease : Lease} {m : Manner}
  {fiber : ContextId} {opening : World -> World} {main code ops : List Op} {told : World}

/-! ### Parts of code -/

/-- Running code does a part that only writes. -/
theorem Sound.writes {role : Role} {h : Handle} (hsound : s.Sound lost) (hrun : s.control = .run)
    (hstack : s.stack = .code (slot.holder label role (ops ++ code) h) :: below)
    (hops : Op.allWriting ops = true) (htells : told.Tells s.world) :
    exists w, s.world.Written w ∧ (Op.writeAll label (homeOf s.running) ops told).Tells w ∧
      (Config.active s).ComesTo (s.go w (.code (slot.holder label role code h) :: below)) := by
  have hstart : Config.active s =
      s.doing s.world label role .body (ops ++ code) (slot.entries h) [] below := by
    rw [doing, go]
    rcases s with ⟨w, running, stack, contexts, control⟩
    cases hrun
    cases hstack
    rfl
  refine ⟨_, Op.written_writeAll _ _ ops s.world, Op.tells_writeAll ops htells, ?_⟩
  rw [hstart]
  exact s.writes_all ops hops s.world .body code (slot.entries h) [] hsound.kind

theorem MainTurn.ne_main (h : s.MainTurn slot label lease fiber opening main code told)
    (hsound : s.Sound lost) : fiber ≠ mainContext := by
  rcases h.ready with ⟨there, hthere, hready⟩
  rintro rfl
  have hlisted := hsound.listed
  rw [h.running, hthere] at hlisted
  cases hlisted
  cases hready

theorem MainTurn.hosts_opening
    (h : s.MainTurn slot label lease fiber opening main code told) (w : World) :
    (opening w).hosts = w.hosts := by
  rcases h.ready with ⟨there, -, hready⟩
  exact hready.hosts w

theorem MainTurn.writes (h : s.MainTurn slot label lease fiber opening (ops ++ main) code told)
    (hsound : s.Sound lost) (hops : Op.allWriting ops = true) :
    exists t, (Config.active s).ComesTo (.active t) ∧
      t.MainTurn slot label lease fiber opening main code
        (Op.writeAll "main" .native ops told) := by
  rcases hsound.writes h.control h.stack hops h.tells with ⟨w, hwritten, htells, hcomes⟩
  rw [h.running, homeOf, if_pos rfl] at htells
  refine ⟨_, hcomes, h.running, rfl, rfl, hwritten.globals.trans h.globals, ?_, htells⟩
  rcases h.ready with ⟨there, hthere, hready⟩
  rw [<- hwritten.hosts] at hready
  exact ⟨there, hthere, hready⟩

theorem LastTurn.writes (h : s.LastTurn slot (ops ++ main) told) (hsound : s.Sound lost)
    (hops : Op.allWriting ops = true) :
    exists t, (Config.active s).ComesTo (.active t) ∧
      t.LastTurn slot main (Op.writeAll "main" .native ops told) := by
  rcases hsound.writes h.control h.stack hops h.tells with ⟨w, hwritten, htells, hcomes⟩
  rw [h.running, homeOf, if_pos rfl] at htells
  exact ⟨_, hcomes, h.running, rfl, rfl, hwritten.globals.trans h.globals, htells⟩

theorem FiberTurn.ne_main (h : s.FiberTurn slot label lease fiber main code told)
    (hsound : s.Sound lost) : mainContext ≠ s.running := by
  intro hmain
  have hlisted := hsound.listed
  rw [<- hmain, h.waits] at hlisted
  cases hlisted

theorem FiberTurn.writes (h : s.FiberTurn slot label lease fiber main (ops ++ code) told)
    (hsound : s.Sound lost) (hops : Op.allWriting ops = true) :
    exists t, (Config.active s).ComesTo (.active t) ∧
      t.FiberTurn slot label lease fiber main code (Op.writeAll label .fiber ops told) := by
  have hmain := h.ne_main hsound
  rcases hsound.writes h.control h.stack hops h.tells with ⟨w, hwritten, htells, hcomes⟩
  rw [homeOf, if_neg hmain.symm] at htells
  refine ⟨_, hcomes, h.running, rfl, rfl, hwritten.globals.trans h.globals, ?_, htells⟩
  have hwaits := h.waits
  rw [<- hwritten.hosts] at hwaits
  exact hwaits

/-! ### Switches between the two -/

/-- A fiber that is resumed by the main program goes on with its code. -/
theorem Ready.arrives {host : Host} (h : Ready label lease host opening code s.stack)
    (hcontrol : s.control = .landed mainContext (.message .handover))
    (htells : told.Tells s.world) :
    exists w, s.world.Written w ∧ (opening told).Tells w ∧
      (Config.active s).ComesTo (s.go w (fiberStack label lease code (.live mainContext))) := by
  generalize hstack : s.stack = stack at h
  cases h with
  | idle =>
      refine ⟨_, .report _ (.traced (.dispatching lease.name)), htells.trace _, 1, ?_⟩
      change s.step = _
      simp only [step, hcontrol, land, receive, hstack, callBody]
      rfl
  | waiting =>
      refine ⟨_, .note _ _ _, htells.note _ _, ?_⟩
      exact delivered hcontrol hstack (Or.inl ⟨rfl, rfl⟩) rfl

theorem MainTurn.resumes (h : s.MainTurn slot label lease fiber opening
      (.resume (m.switch slot) :: main) code told)
    (hsound : s.Sound lost) (hhost : s.world.hosts.resolve m.host = s.world.hosts.self) :
    exists t, (Config.active s).ComesTo (.active t) ∧
      t.FiberTurn slot label lease fiber main code (opening told) := by
  rcases h.ready with ⟨there, hthere, hready⟩
  have htaken := slot.take_holder "main" .program main h.globals
  have hop : s.operation? = some (.resume (m.switch slot)) :=
    operation?_of_onward h.control h.stack rfl rfl
  have hallowed : (s.bindingOf fiber).allows (s.world.hosts.resolve m.host) = true := by
    rw [bindingOf, hthere, hhost]
    exact hready.allows
  rcases hsound.resumes hop h.stack htaken hallowed with ⟨there', w, hthere', hne, hsame, hcomes⟩
  cases hthere.symm.trans hthere'
  have hwritten := World.Written.of_sameButTrace hsame
  let waiting := waitingStack s.world.hosts.self slot main
  let landed := s.hop w waiting fiber there (.message .handover)
  have hlanded : (Config.active s).ComesTo (.active landed) := by
    rw [show s.world.hosts.resolve (m.switch slot).host = s.world.hosts.self from hhost] at hcomes
    exact hcomes
  have hready' : Ready label lease s.world.hosts.self opening code landed.stack := hready
  have hcontrol : landed.control = .landed mainContext (.message .handover) :=
    congrArg (Control.landed · _) h.running
  have htells : told.Tells landed.world := (h.tells.exchange _).of_sameButTrace hsame
  rcases hready'.arrives hcontrol htells with ⟨w', hwritten', htells', hcomes'⟩
  have hhosts : w'.hosts = s.world.hosts := hwritten'.hosts.trans hwritten.hosts
  refine ⟨_, hlanded.trans hcomes', rfl, rfl, rfl, hwritten'.globals.trans hwritten.globals, ?_,
    htells'⟩
  have hparked := parked?_hop w waiting there (.message .handover) hsound.listed hthere hne
    s.running
  rw [if_neg hne.symm, if_pos rfl, h.running] at hparked
  rw [hhosts]
  exact hparked

theorem FiberTurn.resumes (h : s.FiberTurn slot label lease fiber main
      (.resume (m.switch callerSlot) :: code) told)
    (hsound : s.Sound lost) (hhost : s.world.hosts.resolve m.host = s.world.hosts.self) :
    exists t, (Config.active s).ComesTo (.active t) ∧
      t.MainTurn slot label lease fiber (fun w => w.note label (.resumed (.live mainContext))) main
        code (told.note "main" (.resumed (.live fiber))) := by
  have htaken : (Scene.mk s.world (callerSlot.holder label (.called callerSlot) code
      (.live mainContext))).take callerSlot = (.live mainContext, ⟨s.world, callerSlot.holder label
        (.called callerSlot) code .empty⟩) := rfl
  have hop : s.operation? = some (.resume (m.switch callerSlot)) :=
    operation?_of_onward h.control h.stack rfl rfl
  have hallowed : (s.bindingOf mainContext).allows (s.world.hosts.resolve m.host) = true := by
    rw [bindingOf, h.waits, hhost]
    exact decide_eq_true rfl
  rcases hsound.resumes hop h.stack htaken hallowed with ⟨there, w, hthere, hne, hsame, hcomes⟩
  cases h.waits.symm.trans hthere
  have hwritten := World.Written.of_sameButTrace hsame
  let waiting : List Frame :=
    [.calling (.resume s.world.hosts.self none callerSlot)
      (callerSlot.holder label (.called callerSlot) code .empty), .base (.busy lease)]
  let landed := s.hop w waiting mainContext (waitingStack s.world.hosts.self slot main)
    (.message .handover)
  have hlanded : (Config.active s).ComesTo (.active landed) := by
    rw [show s.world.hosts.resolve (m.switch callerSlot).host = s.world.hosts.self from hhost]
      at hcomes
    exact hcomes
  have hcontrol : landed.control = .landed fiber (.message .handover) :=
    congrArg (Control.landed · _) h.running
  have hglobals : w.globals = slot.globals .empty := hwritten.globals.trans h.globals
  have hput := slot.put_holder (w := w.note "main" (.resumed (.live fiber))) "main" .program main
    (.live fiber) hglobals
  have hdelivered := delivered hcontrol rfl (Or.inl ⟨rfl, rfl⟩) hput
  have hparked := parked?_hop w waiting (waitingStack s.world.hosts.self slot main)
    (.message .handover) hsound.listed h.waits hne s.running
  rw [if_neg hne.symm, if_pos rfl, h.running] at hparked
  refine ⟨_, hlanded.trans hdelivered, rfl, rfl, rfl, rfl, ⟨waiting, hparked, ?_⟩, ?_⟩
  · have hhosts : w.hosts = s.world.hosts := hwritten.hosts
    change Ready label lease w.hosts.self _ _ _
    rw [hhosts]
    exact .waiting code
  · exact ((h.tells.of_sameButTrace hsame).note _ _).exchange _

/-- A fiber that comes to its end hands control back, and leaves no handle. -/
theorem FiberTurn.ends (h : s.FiberTurn slot label lease fiber main [] told)
    (hsound : s.Sound lost) (howner : lease.owner = none) :
    exists t, (Config.active s).ComesTo (.active t) ∧
      t.LastTurn slot main (told.note "main" (.resumed .empty)) := by
  have hmain := h.ne_main hsound
  let leaving : State :=
    { s with stack := [.base (.leaving lease (.returned mainContext))], control := .run }
  have hleaving : (Config.active s).ComesTo (.active leaving) := by
    rcases s with ⟨w, running, stack, contexts, control⟩
    cases h.control
    cases h.stack
    exact ⟨6, rfl⟩
  let w := s.world.trace (.exiting lease.name)
  let there := waitingStack s.world.hosts.self slot main
  let landed := s.hop w [.base (.exited lease)] mainContext there .exit
  have hexits : leaving.step = .active landed := transfer_eq_hop h.waits (List.cons_ne_nil _ _)
  have hparked := parked?_hop w [.base (.exited lease)] there .exit hsound.listed h.waits hmain
    s.running
  rw [if_neg hmain.symm, if_pos rfl, h.running] at hparked
  let released : State :=
    { landed with
      world := { w.trace (.releasing lease.name) with registry := w.registry.erase lease.stack }
      contexts := landed.contexts.filter (fun entry => entry.1 ≠ fiber)
      control := .landed fiber (.message .farewell) }
  have hreleases : landed.step = .active released := by
    have hcontrol : landed.control = .landed fiber .exit := congrArg (Control.landed · _) h.running
    simp only [step, hcontrol, land, release, landed, hparked, howner]
    rfl
  have hput := slot.put_holder (w := released.world.note "main" (.resumed .empty)) "main" .program
    main .empty h.globals
  have hdelivered := delivered (s := released) rfl rfl (Or.inr ⟨rfl, rfl⟩) hput
  have htells : told.Tells released.world :=
    World.Tells.register ((h.tells.trace _).trace _) _
  refine ⟨_, hleaving.trans (Config.ComesTo.trans ⟨2, ?_⟩ hdelivered), rfl, rfl, rfl, rfl,
    (htells.note _ _).exchange _⟩
  change Config.after 1 leaving.step = _
  rw [hexits]
  exact hreleases

/-! ### The first and the last steps -/

/-- A system's stack of any size that the system has memory for has room for a fiber. -/
theorem supply_system {settings : SystemStacks} (hroom : settings.mappedSize ≤ systemMemory)
    (site : Site) (memory : Memory) (inUse : List Region) :
    exists placement,
      Allocator.supply memory inUse (.system settings site) =
          .ok (site.reserve memory inUse settings.roundedSize) ∧
        Placement.onStack (site.reserve memory inUse settings.roundedSize).1 recordSize =
          .ok placement := by
  have hword : ¬ wordLimit ≤ settings.mappedSize :=
    Nat.not_le.mpr (Nat.lt_of_le_of_lt hroom (by decide))
  have hpage : pageSize ≤ settings.roundedSize := Nat.le_add_left _ _
  have hsize : Placement.required recordSize ≤
      (site.reserve memory inUse settings.roundedSize).1.size := by
    rw [site.size_reserve]
    exact Nat.le_trans (by decide) hpage
  cases hplaced : Placement.onStack (site.reserve memory inUse settings.roundedSize).1 recordSize with
  | error cause =>
      have hsmall := (Placement.onStack_eq_error.mp hplaced).1
      exact absurd hsize (Nat.not_le.mpr hsmall)
  | ok placement =>
      refine ⟨placement, ?_, rfl⟩
      rw [Allocator.supply, if_neg hword, if_neg (Nat.not_lt.mpr hroom)]

/-- A fiber that captures nothing is made on a stack of the system's. -/
theorem step_of_create {spec : FiberSpec} {body : List Op} {stack : Region} {memory : Memory}
    {placement : Placement} (hop : s.operation? = some (.create spec [] [] body))
    (hstack : s.stack = .code a :: below) (howner : spec.allocator.label? = none)
    (hsupply : spec.allocator.supply s.world.memory s.world.registry.ranges = .ok (stack, memory))
    (hplaced : Placement.onStack stack recordSize = .ok placement)
    (htells : told.Tells s.world) :
    exists w, told.Tells w ∧ w.globals = s.world.globals ∧
      s.step = (s.grown s.world.memory.next).transfer w
        (.calling (.create spec.slot) a.advance :: below) s.world.memory.next
        (.start (some ⟨⟨spec.name, stack, none⟩, some ⟨spec.label, [], callerSlot, body⟩⟩)) := by
  have hcapture : (Scene.mk s.world a.advance).capture spec.label (.own "caller") [] [] body =
      (⟨spec.label, [], callerSlot, body⟩, ⟨s.world, a.advance⟩) := by
    simp [Scene.capture, Scene.takeAll, callerSlot]
  let lent := World.settle { s.world with memory := memory } stack s.world.memory.next
    (placement.usable.top - 1)
  let w := ((lent.trace (.spanMade spec.name)).trace .spanEntered).trace (.registering stack)
  have hlent : told.Tells lent := ⟨htells.hosts, htells.cells, htells.guards, htells.lent, htells.log⟩
  refine ⟨w, ((hlent.trace _).trace _).trace _, rfl, ?_⟩
  rw [step_of_operation hstack hop]
  simp only [execute, hcapture, create, howner]
  have hmemory : (s.world.askForStack spec.name none s.kind).memory = s.world.memory := rfl
  have hregistry : (s.world.askForStack spec.name none s.kind).registry = s.world.registry := rfl
  rw [hmemory, hregistry, hsupply]
  simp only [place, hplaced, howner, launch, World.lendStack, Option.elim, Int.add_zero]
  rfl

/-- A new fiber parks at once, and its maker goes on with its handle. -/
theorem Sound.makes_ready {w : World} {record : Record} {role : Role} (h : s.Sound lost)
    (hmove : s.step = (s.grown fiber).transfer w
      (.calling (.create slot) ⟨label, role, [⟨.body, code, []⟩], .onward⟩ :: below) fiber
      (.start (some record)))
    (hglobals : w.globals = []) (htells : told.Tells w) :
    exists t, (Config.active s).ComesTo (.active t) ∧ t.running = s.running ∧ t.control = .run ∧
      t.stack = .code (slot.holder label role code (.live fiber)) :: below ∧
      t.world.globals = slot.globals (.live fiber) ∧
      t.parked? fiber = some [.base (.idle record)] ∧ told.Tells t.world := by
  let waiting : List Frame :=
    .calling (.create slot) ⟨label, role, [⟨.body, code, []⟩], .onward⟩ :: below
  have hthere : (s.grown fiber).parked? fiber = some [.base .unborn] := List.lookup_cons_self
  let entered := (s.grown fiber).hop w waiting fiber [.base .unborn] (.start (some record))
  have henters : s.step = .active entered :=
    hmove.trans (transfer_eq_hop hthere (List.cons_ne_nil _ _))
  have hnew := h.new_of_launch hmove henters
  have hne := ne_running_of_new h.listed hnew
  have hentered := (h.move henters).2
  have hmaker := parked?_hop w waiting [.base .unborn] (.start (some record))
    (listed_grown h.listed hnew) hthere hne s.running
  rw [if_neg hne.symm] at hmaker
  have hwaits : entered.parked? s.running = some waiting := hmaker.trans (if_pos rfl)
  let parked := entered.hop w [.base (.idle record)] s.running waiting (.message .handover)
  have hparks : entered.step = .active parked := transfer_eq_hop hwaits (List.cons_ne_nil _ _)
  have hready := parked?_hop w [.base (.idle record)] waiting (.message .handover) hentered.listed
    hwaits hne.symm fiber
  rw [if_neg hne] at hready
  have hidle : parked.parked? fiber = some [.base (.idle record)] := hready.trans (if_pos rfl)
  have hcreated := (htells.trace (.created fiber)).trace .spanLeft
  have hput := slot.put_new (w := (w.trace (.created fiber)).trace .spanLeft) label role code
    (.live fiber) hglobals
  let w' := (w.trace (.created fiber)).trace .spanLeft
  have hgoes : parked.step = parked.go w' (.calling (.store [(slot, .live fiber)] none)
      ⟨label, role, [⟨.body, code, []⟩], .onward⟩ :: below) := rfl
  refine ⟨{ parked with
    world := { w' with globals := slot.globals (.live fiber) }
    stack := .code (slot.holder label role code (.live fiber)) :: below
    control := .run }, ⟨5, ?_⟩, rfl, rfl, rfl, rfl, hidle, hcreated.exchange _⟩
  change Config.after 4 s.step = _
  rw [henters]
  change Config.after 3 entered.step = _
  rw [hparks]
  change Config.after 2 parked.step = _
  rw [hgoes]
  exact stored rfl rfl hput

/-- When the fiber has been made, the main program has its first turn. -/
theorem mainTurn_ofDialogue (hosts : List (String × HostSource)) {spec : FiberSpec}
    {settings : SystemStacks} {site : Site} (first : List Op) (d : Dialogue)
    (hallocator : spec.allocator = .system settings site) (hroom : settings.mappedSize ≤ systemMemory) :
    exists fiber lease t, lease.owner = none ∧
      (Config.active (Program.ofDialogue hosts spec first d).start).ComesTo (.active t) ∧
      t.MainTurn spec.slot spec.label lease fiber id (first ++ d.mainCode spec.slot) d.fiberCode
        (Program.ofDialogue hosts spec first d).start.world := by
  have hsound := sound_start (Program.ofDialogue hosts spec first d)
  have hglobals : (Program.ofDialogue hosts spec first d).start.world.globals = [] := rfl
  have htold : (Program.ofDialogue hosts spec first d).start.world.Tells
      (Program.ofDialogue hosts spec first d).start.world := ⟨rfl, rfl, rfl, rfl, rfl⟩
  rcases supply_system hroom site (Program.ofDialogue hosts spec first d).start.world.memory
    (Program.ofDialogue hosts spec first d).start.world.registry.ranges with
    ⟨placement, hsupply, hplaced⟩
  rw [<- hallocator] at hsupply
  have hcreate := step_of_create (s := (Program.ofDialogue hosts spec first d).start) rfl rfl
    (by rw [hallocator]; rfl) hsupply hplaced htold
  rcases hcreate with ⟨w, htells, hkept, hmove⟩
  rcases hsound.makes_ready hmove (hkept.trans hglobals) htells with
    ⟨t, hcomes, hrunning, hrun, hstack, hhandle, hparked, htells'⟩
  exact ⟨_, _, t, rfl, hcomes, hrunning, hrun, hstack, hhandle, ⟨_, hparked, .idle _⟩, htells'⟩

/-- At the end of its code the main program has nothing to drop, and the run is over. -/
theorem LastTurn.finishes (h : s.LastTurn slot [] told) :
    exists w, (Config.active s).ComesTo (.halted .finished w) ∧ w.cells = told.cells ∧
      w.untraced = .ended :: told.log ∧ w.liveGuards = told.liveGuards ∧
        w.liveStacks = told.liveStacks := by
  let ended := s.world.report .ended
  have hclosed : (Config.active s).ComesTo
      (s.go ended [.root (.draining drainRounds [] true none)]) := by
    have hstack := h.stack
    have hrun := h.control
    rcases s with ⟨w, running, stack, contexts, control⟩
    cases hrun
    cases hstack
    cases slot with
    | own name => exact ⟨7, rfl⟩
    | shared name => exact ⟨4, rfl⟩
  have hround : (s.go ended [.root (.draining drainRounds [] true none)]).ComesTo
      (s.go ended [.root (.draining 99 ended.globalNames false none)]) := ⟨1, rfl⟩
  have hlog : ended.untraced = .ended :: told.log := by
    rw [<- h.tells.log]
    rfl
  have hglobals := h.globals
  cases slot with
  | own name =>
      have hnames : ended.globalNames = [] := by
        simp [World.globalNames, ended, World.report, hglobals, SlotName.globals]
      rw [hnames] at hround
      exact ⟨ended, hclosed.trans (hround.trans ⟨1, rfl⟩), h.tells.cells, hlog, h.tells.guards,
        h.tells.lent⟩
  | shared name =>
      have hnames : ended.globalNames = [name] := by
        simp [World.globalNames, ended, World.report, hglobals, SlotName.globals]
      rw [hnames] at hround
      have htake : ended.take name = (.empty, { ended with globals := [(name, .empty)] }) := by
        have hended : ended.globals = [(name, .empty)] := hglobals
        simp [World.take, hended, exchangeShared]
      have hempty : State.step
          { s with world := ended, stack := [.root (.draining 99 [name] false none)], control := .run } =
          s.go { ended with globals := [(name, .empty)] } [.root (.draining 99 [] false none)] := by
        simp only [step, run, runRoot, htake]
        rfl
      refine ⟨{ ended with globals := [(name, .empty)] }, hclosed.trans (hround.trans ⟨2, ?_⟩),
        h.tells.cells, hlog, h.tells.guards, h.tells.lent⟩
      change Config.after 1 (State.step _) = _
      rw [hempty]
      rfl

end State

/-! ## Whole dialogues -/

namespace Program.Reaches

variable {p : Program} {past : List State} {s : State} {slot : SlotName} {label : String}
  {lease : Lease} {fiber : ContextId} {opening : World -> World} {told : World}

/-- From its turn on, the main program comes to the end of the dialogue, as it is told. -/
theorem dialogue (d : Dialogue) (hreach : p.Reaches past s)
    (h : s.MainTurn slot label lease fiber opening (d.mainCode slot) d.fiberCode told)
    (howner : lease.owner = none) (hwriting : d.allWriting = true)
    (hhosts : d.OnOwnHost told.hosts) :
    exists t, (Config.active s).ComesTo (.active t) ∧
      t.LastTurn slot [] (d.tell label fiber (opening told)) := by
  have hhome := h.tells.hosts
  induction d generalizing past s opening told with
  | last there ops main =>
      simp only [Dialogue.allWriting, Bool.and_eq_true] at hwriting
      rw [Dialogue.mainCode, Dialogue.fiberCode, <- List.append_nil ops, <- List.append_nil main] at h
      rw [Dialogue.OnOwnHost, <- hhome] at hhosts
      rcases h.resumes hreach.sound hhosts with ⟨s₁, hcomes₁, hturn₁⟩
      rcases hreach.comesTo hcomes₁ with ⟨past₁, hreach₁⟩
      rcases hturn₁.writes hreach₁.sound hwriting.1 with ⟨s₂, hcomes₂, hturn₂⟩
      rcases hreach₁.comesTo hcomes₂ with ⟨past₂, hreach₂⟩
      rcases hturn₂.ends hreach₂.sound howner with ⟨s₃, hcomes₃, hturn₃⟩
      rcases hreach₂.comesTo hcomes₃ with ⟨past₃, hreach₃⟩
      rcases hturn₃.writes hreach₃.sound hwriting.2 with ⟨s₄, hcomes₄, hturn₄⟩
      exact ⟨s₄, hcomes₁.trans (hcomes₂.trans (hcomes₃.trans hcomes₄)), hturn₄⟩
  | more there ops back main rest ih =>
      simp only [Dialogue.allWriting, Bool.and_eq_true] at hwriting
      rcases hwriting with ⟨⟨hops, hmain⟩, hwriting⟩
      rcases hhosts with ⟨hthere, hback, hrest⟩
      rw [Dialogue.mainCode, Dialogue.fiberCode] at h
      rcases h.resumes hreach.sound (by rw [hhome, hthere]) with ⟨s₁, hcomes₁, hturn₁⟩
      rcases hreach.comesTo hcomes₁ with ⟨past₁, hreach₁⟩
      rcases hturn₁.writes hreach₁.sound hops with ⟨s₂, hcomes₂, hturn₂⟩
      rcases hreach₁.comesTo hcomes₂ with ⟨past₂, hreach₂⟩
      -- The parts only write, and so the host of the program stays what it was.
      have hopened : (opening told).hosts = told.hosts := h.hosts_opening told
      have hkept := (Op.written_writeAll label .fiber ops (opening told)).hosts
      have hhome₂ := hturn₂.tells.hosts.trans (hkept.trans hopened)
      rcases hturn₂.resumes hreach₂.sound (by rw [hhome₂, hback]) with ⟨s₃, hcomes₃, hturn₃⟩
      rcases hreach₂.comesTo hcomes₃ with ⟨past₃, hreach₃⟩
      rcases hturn₃.writes hreach₃.sound hmain with ⟨s₄, hcomes₄, hturn₄⟩
      rcases hreach₃.comesTo hcomes₄ with ⟨past₄, hreach₄⟩
      have hkept₄ := (Op.written_writeAll "main" .native main
        ((Op.writeAll label .fiber ops (opening told)).note "main" (.resumed (.live fiber)))).hosts
      have hrest₄ := hkept₄.trans (hkept.trans hopened)
      rw [<- hrest₄] at hrest
      rcases ih hreach₄ hturn₄ hwriting hrest hturn₄.tells.hosts with ⟨t, hcomes, hlast⟩
      exact ⟨t, hcomes₁.trans (hcomes₂.trans (hcomes₃.trans (hcomes₄.trans hcomes))), hlast⟩

end Program.Reaches

/-- A dialogue is told by writing. -/
theorem Dialogue.written_tell (label : String) (fiber : ContextId) (d : Dialogue) (w : World) :
    w.Written (d.tell label fiber w) := by
  induction d generalizing w with
  | last there ops main =>
      have hfiber := Op.written_writeAll label .fiber ops w
      have hnoted := hfiber.trans (.note _ "main" (.resumed .empty))
      exact hnoted.trans (Op.written_writeAll _ _ main _)
  | more there ops back main rest ih =>
      have hfiber := Op.written_writeAll label .fiber ops w
      have hnoted := hfiber.trans (.note _ "main" (.resumed (.live fiber)))
      have hmain := hnoted.trans (Op.written_writeAll "main" .native main _)
      exact (hmain.trans (.note _ label (.resumed (.live mainContext)))).trans (ih _)

/--
A fiber and its resumer are the interleaving of their parts.  However often they resume each other,
with or without a check, the program finishes, with the cells that the straight line of their parts
makes and with its log, in which each switch that returned is noted between the parts: live as long
as the other one waits, and empty when the fiber has ended.
-/
theorem dialogue_interleaved (hosts : List (String × HostSource)) {spec : FiberSpec}
    {settings : SystemStacks} {site : Site} {first : List Op} {d : Dialogue}
    (hallocator : spec.allocator = .system settings site) (hroom : settings.mappedSize ≤ systemMemory)
    (hfirst : Op.allWriting first = true) (hwriting : d.allWriting = true)
    (hhosts : d.OnOwnHost (HostTable.ofDeclared hosts)) :
    exists fiber w,
      fiber ≠ mainContext ∧ (Program.ofDialogue hosts spec first d).EndsWith .finished w ∧
        w.cells = (d.tell spec.label fiber (Op.writeAll "main" .native first
          (Program.ofDialogue hosts spec first d).start.world)).cells ∧
        (Program.ofDialogue hosts spec first d).run.outcome = .finished ∧
        (Program.ofDialogue hosts spec first d).run.untraced =
          (d.tell spec.label fiber (Op.writeAll "main" .native first
            (Program.ofDialogue hosts spec first d).start.world)).log.reverse ++ [.ended] ∧
        (Program.ofDialogue hosts spec first d).run.liveGuards = 0 ∧
        (Program.ofDialogue hosts spec first d).run.liveStacks = 0 := by
  rcases State.mainTurn_ofDialogue hosts first d hallocator hroom with
    ⟨fiber, lease, s₁, howner, hcomes₁, hturn₁⟩
  rcases Program.Reaches.start.comesTo hcomes₁ with ⟨past₁, hreach₁⟩
  have hne := hturn₁.ne_main hreach₁.sound
  rcases hturn₁.writes hreach₁.sound hfirst with ⟨s₂, hcomes₂, hturn₂⟩
  rcases hreach₁.comesTo hcomes₂ with ⟨past₂, hreach₂⟩
  have hopening := (Op.written_writeAll "main" .native first
    (Program.ofDialogue hosts spec first d).start.world)
  rcases hreach₂.dialogue d hturn₂ howner hwriting (by rw [hopening.hosts]; exact hhosts) with
    ⟨s₃, hcomes₃, hturn₃⟩
  rcases hturn₃.finishes with ⟨w, hcomes₄, hcells, hlog, hguards, hlent⟩
  have hends := hcomes₁.trans (hcomes₂.trans (hcomes₃.trans hcomes₄))
  have hrun : (Program.ofDialogue hosts spec first d).run = .ofWorld .finished w := by
    rcases hends with ⟨n, hn⟩
    rcases Program.after_eq_halted hn with ⟨past, s, hreach, hstep⟩
    exact hreach.run_eq hstep
  have hwritten := hopening.trans (d.written_tell spec.label fiber _)
  have huntraced : (Answer.ofWorld .finished w).untraced = w.untraced.reverse :=
    List.filter_reverse ..
  rw [hrun]
  refine ⟨fiber, w, hne, hends, hcells, rfl, ?_, hguards.trans hwritten.guards,
    hlent.trans hwritten.lent⟩
  rw [huntraced, hlog, List.reverse_cons, id]

/-- A small dialogue to look at, with a round trip before its last one. -/
def Dialogue.twoRounds : Dialogue :=
  .more ⟨true, none, .keep⟩ [.say "b₀"] ⟨false, none, .keep⟩ [.addCell "n" (.number 1)]
    (.last ⟨false, some "self", .keep⟩ [.addCell "n" (.number 2)] [.printCell "n"])

/-- Its fiber lives on a standard stack. -/
def FiberSpec.standard : FiberSpec := ⟨.own "f", "F", none, .system .standard⟩

/-- The parts of the small dialogue follow each other. -/
theorem dialogue_interleaved_of_twoRounds :
    SystemStacks.standard.mappedSize ≤ systemMemory ∧ Op.allWriting [.say "m₀"] = true ∧
      Dialogue.twoRounds.allWriting = true ∧
      Dialogue.twoRounds.OnOwnHost (HostTable.ofDeclared []) ∧
      exists fiber w,
        fiber ≠ mainContext ∧
          (Program.ofDialogue [] .standard [.say "m₀"] .twoRounds).EndsWith .finished w ∧
          w.cells = [("n", 3)] ∧
          (Program.ofDialogue [] .standard [.say "m₀"] .twoRounds).run.outcome = .finished ∧
          (Program.ofDialogue [] .standard [.say "m₀"] .twoRounds).run.untraced =
            [.noted "main" (.said "m₀"), .noted "F" (.said "b₀"),
              .noted "main" (.resumed (.live fiber)), .noted "F" (.resumed (.live mainContext)),
              .noted "main" (.resumed .empty), .noted "main" (.cell "n" 3), .ended] ∧
          (Program.ofDialogue [] .standard [.say "m₀"] .twoRounds).run.liveGuards = 0 ∧
          (Program.ofDialogue [] .standard [.say "m₀"] .twoRounds).run.liveStacks = 0 := by
  have hallocator : FiberSpec.standard.allocator = .system .standard := rfl
  have hroom : SystemStacks.standard.mappedSize ≤ systemMemory := by decide
  have hfirst : Op.allWriting [.say "m₀"] = true := rfl
  have hwriting : Dialogue.twoRounds.allWriting = true := rfl
  have hhosts : Dialogue.twoRounds.OnOwnHost (HostTable.ofDeclared []) := ⟨rfl, rfl, rfl⟩
  exact ⟨hroom, hfirst, hwriting, hhosts,
    dialogue_interleaved [] hallocator hroom hfirst hwriting hhosts⟩

end Fibers
