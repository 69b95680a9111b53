import Fibers.Proofs.Abandon.Run
import Fibers.Proofs.Stacks

/-!
# Drops are on top

Where no code runs as a guard is dropped, nothing is called above a drop.  So drops are under way at
the top of stacks only, and a context that can be resumed is not in the middle of one.  All that it
owns are handles, and its stack can be unwound without code being run.
-/

namespace Fibers

/-- Forced unwinds are not discarded, and no code runs where a guard is dropped. -/
def Discipline.tame : Discipline := ⟨false, false⟩

namespace Discipline

mutual

theorem lossless_of_tame (op : Op) (h : tame.allows op = true) : lossless.allows op = true := by
  cases op with
  | create fiber captures moves body => exact allLossless_of_tame body h
  | resumeWith switch captures moves onTop => exact allLossless_of_tame onTop h
  | guard label onDrop => exact allLossless_of_tame onDrop (Bool.and_eq_true_iff.mp h).2
  | scope ops | rounds count ops | whileLive slot limit ops => exact allLossless_of_tame ops h
  | ifEmpty slot yes no | ifCell cell atLeast yes no =>
      simp only [allows, Bool.and_eq_true] at h ⊢
      exact ⟨allLossless_of_tame yes h.1, allLossless_of_tame no h.2⟩
  | attempt swallow ops =>
      simp only [allows, Bool.and_eq_true] at h ⊢
      exact ⟨h.1, allLossless_of_tame ops h.2⟩
  | _ => rfl

theorem allLossless_of_tame (ops : List Op) (h : tame.allowsAll ops = true) :
    lossless.allowsAll ops = true := by
  cases ops with
  | nil => rfl
  | cons op rest =>
      simp only [allowsAll, Bool.and_eq_true] at h ⊢
      exact ⟨lossless_of_tame op h.1, allLossless_of_tame rest h.2⟩

end

end Discipline

/-! ## Stacks -/

/-- Something is being dropped, or waited for in a drop. -/
def Frame.isDrop : Frame -> Bool
  | discarding _ _ | dropping => true
  | _ => false

/-- No drop is under way. -/
def DropFree (stack : List Frame) : Prop := forall f, f ∈ stack -> f.isDrop = false

/-- Drops are under way at the top only. -/
def DropsOnTop (stack : List Frame) : Prop := DropFree (stack.dropWhile Frame.isDrop)

section Shapes

variable {f : Frame} {stack below : List Frame}

theorem dropFree_cons : DropFree (f :: below) ↔ f.isDrop = false ∧ DropFree below :=
  List.forall_mem_cons

theorem dropsOnTop_of_isDrop (h : f.isDrop = true) : DropsOnTop (f :: below) ↔ DropsOnTop below := by
  rw [DropsOnTop, List.dropWhile_cons_of_pos h]
  rfl

theorem dropsOnTop_of_not_isDrop (h : f.isDrop = false) : DropsOnTop (f :: below) ↔ DropFree below := by
  rw [DropsOnTop, List.dropWhile_cons_of_neg (by simp [h]), dropFree_cons]
  exact and_iff_right h

theorem DropFree.dropsOnTop (h : DropFree stack) : DropsOnTop stack :=
  fun f hf => h f ((List.dropWhile_suffix _).subset hf)

variable (below)

@[simp] theorem dropsOnTop_discarding (entries : List Entry) (cause : Option Unwind) :
    DropsOnTop (.discarding entries cause :: below) ↔ DropsOnTop below := dropsOnTop_of_isDrop rfl

@[simp] theorem dropsOnTop_dropping : DropsOnTop (.dropping :: below) ↔ DropsOnTop below :=
  dropsOnTop_of_isDrop rfl

@[simp] theorem dropsOnTop_code (a : Activation) : DropsOnTop (.code a :: below) ↔ DropFree below :=
  dropsOnTop_of_not_isDrop rfl

@[simp] theorem dropsOnTop_calling (call : Call) (a : Activation) :
    DropsOnTop (.calling call a :: below) ↔ DropFree below := dropsOnTop_of_not_isDrop rfl

@[simp] theorem dropsOnTop_onTop (source : ContextId) :
    DropsOnTop (.onTop source :: below) ↔ DropFree below := dropsOnTop_of_not_isDrop rfl

@[simp] theorem dropsOnTop_base (stage : FiberStage) :
    DropsOnTop (.base stage :: below) ↔ DropFree below := dropsOnTop_of_not_isDrop rfl

@[simp] theorem dropsOnTop_root (stage : RootStage) :
    DropsOnTop (.root stage :: below) ↔ DropFree below := dropsOnTop_of_not_isDrop rfl

@[simp] theorem dropsOnTop_dropFirst (entries : List Entry) :
    DropsOnTop (dropFirst entries below) ↔ DropsOnTop below := by
  cases entries with
  | nil => exact Iff.rfl
  | cons e rest => exact dropsOnTop_discarding below (e :: rest) none

end Shapes

/-- What can be resumed is not in the middle of a drop. -/
theorem DropsOnTop.dropFree_of_needOf {stack : List Frame} (h : DropsOnTop stack)
    (hneed : needOf stack = some .handle) : DropFree stack := by
  rcases needOf_handle hneed with ⟨host, target, a, below, rfl⟩ | ⟨record, below, rfl⟩
  · exact dropFree_cons.mpr ⟨rfl, (dropsOnTop_calling ..).mp h⟩
  · exact dropFree_cons.mpr ⟨rfl, (dropsOnTop_base ..).mp h⟩

namespace State

variable {s s' : State} {lost : List ContextId}

/-! ## Steps -/

/-- What a step makes of the running context's stack, on which drops are under way at the top only. -/
inductive Settles (s : State) : Config -> Prop where
  | go {w : World} {stack : List Frame} : DropsOnTop stack -> Settles s (s.go w stack)
  | transfer {w : World} {stack : List Frame} {target : ContextId} {signal : Signal} :
      DropsOnTop stack -> Settles s (s.transfer w stack target signal)
  | launch {w : World} {stack : List Frame} {fiber : ContextId} {signal : Signal} :
      DropsOnTop stack -> Settles s (({ s with contexts := (fiber, [.base .unborn]) :: s.contexts }
        : State).transfer w stack fiber signal)
  | land {stack : List Frame} {control : Control} :
      DropsOnTop stack -> Settles s (.active { s with stack := stack, control := control })
  | answer {prober : ContextId} {binding : Affinity} :
      s.control = .landed prober (.message .query) -> Settles s (s.answer prober binding)
  | call {source : ContextId} : s.control = .landed source .onTop -> Settles s (s.callOnTop source)
  | release {source : ContextId} : s.control = .landed source .exit -> Settles s (s.release source)
  | halt {outcome : Outcome} {w : World} : Settles s (.halted outcome w)

section Code

variable {below : List Frame} (hbelow : DropFree below) (scene : Scene)

include hbelow

theorem settles_proceed : s.Settles (s.proceed scene below) := .go (by simpa using hbelow)

theorem settles_store (pending : List (SlotName × Handle)) (note : Option Note) :
    s.Settles (s.store scene below pending note) := .go (by simpa using hbelow)

theorem settles_drop (w : World) (entries : List Entry) :
    s.Settles (s.go w (dropFirst entries (.code scene.code :: below))) := .go (by simpa using hbelow)

theorem settles_panic (payload : Payload) (captured : List Entry) :
    s.Settles (s.panic scene below payload captured) := .go (by simpa using hbelow)

theorem settles_failBuild (body : Closure) (cause : BuildError) :
    s.Settles (s.failBuild scene below body cause) := .go (by simpa using hbelow)

theorem settles_depart (target : ContextId) (switch : SwitchSpec) (onTop : Option Closure) :
    s.Settles (s.depart scene below target switch onTop) := by
  cases onTop <;> exact .transfer (by simpa using hbelow)

theorem settles_probe (target : ContextId) (query : Query) (purpose : ProbePurpose) :
    s.Settles (s.probe scene below target query purpose) := .transfer (by simpa using hbelow)

theorem settles_resume (switch : SwitchSpec) (onTop : Option Closure) :
    s.Settles (s.resume scene below switch onTop) := by
  unfold State.resume
  split
  · exact settles_depart hbelow _ _ _ _
  · exact settles_probe hbelow _ _ _ _
  · exact settles_panic hbelow _ _ _
  · exact settles_panic hbelow _ _ _

theorem settles_ask (question : Question) (slot : SlotName) :
    s.Settles (s.ask scene below question slot) := by
  unfold State.ask
  split
  · exact settles_probe hbelow _ _ _ _
  · exact settles_panic hbelow _ _ _

theorem settles_create (spec : FiberSpec) (body : Closure) :
    s.Settles (s.create scene below spec body) := by
  unfold State.create
  dsimp only
  split
  · exact settles_failBuild hbelow _ _ _
  · unfold State.place
    split
    · exact .launch (by simpa using hbelow)
    · exact settles_failBuild hbelow _ _ _

theorem settles_execute (op : Op) : s.Settles (s.execute scene below op) := by
  cases op with
  | create spec captures moves body => exact settles_create hbelow _ _ _
  | resume switch | resumeWith switch captures moves onTop => exact settles_resume hbelow _ _ _
  | ask question slot => exact settles_ask hbelow _ _ _
  | drop slot => exact settles_drop hbelow _ _ _
  | compare a b =>
      simp only [State.execute]
      split
      · exact settles_store hbelow _ _ _
      · exact settles_store hbelow _ _ _
  | move slot target | collect slots => exact settles_store hbelow _ _ _
  | panic payload => exact settles_panic hbelow _ _ _
  | isEmpty slot | display slot | debug slot | giveBack slot | ifEmpty slot yes no
  | ifCell cell atLeast yes no | guard label onDrop | scope ops | rounds count ops
  | whileLive slot limit ops | leaveLoop | attempt swallow ops | say message | whereAmI
  | setCell cell source | addCell cell source | printCell cell | compareHosts a b
  | checkAffinity binding host | currentHost | defaultAffinity | describeStacks settings =>
      exact settles_proceed hbelow _

/-! ### Code that ends -/

/-- Code does not lie on a drop, so its result goes to the boundary that it lies on. -/
theorem settles_give (result : Handle) : s.Settles (s.give result below) := by
  unfold State.give
  split
  · rw [dropFree_cons] at hbelow
    split <;> exact .land hbelow.2.dropsOnTop
  · rw [dropFree_cons] at hbelow
    split
    · exact .go (by simpa using hbelow.2)
    · exact .halt
  · exact nomatch (dropFree_cons.mp hbelow).1
  · exact .go (by simpa using (dropFree_cons.mp hbelow).2)
  · exact .halt

theorem settles_endBlock (a : Activation) (b : Block) (outer : List Block) :
    s.Settles (s.endBlock a b outer below) := by
  have haround : forall a' : Activation, s.Settles (s.go s.world (.code a' :: below)) :=
    fun a' => settles_proceed hbelow ⟨s.world, a'⟩
  unfold State.endBlock
  dsimp only
  split
  · split
    · exact haround _
    · split
      · exact settles_proceed hbelow _
      · exact settles_proceed hbelow _
    · exact haround _
  · split
    · exact haround _
    · exact haround _
  · exact haround _

theorem settles_runCode (a : Activation) : s.Settles (s.runCode a below) := by
  unfold State.runCode
  split
  · exact settles_give hbelow _
  · split
    · exact settles_execute hbelow _ _
    · exact settles_proceed hbelow _
    · exact settles_proceed hbelow _
    · split
      · exact .go (by simpa using hbelow)
      · exact settles_endBlock hbelow _ _ _
      · exact .go (by simpa using hbelow)

theorem settles_runCall (call : Call) (a : Activation) : s.Settles (s.runCall call a below) := by
  unfold State.runCall
  split
  · exact .go (by simpa using hbelow)
  · exact .go (by simpa using hbelow)
  · exact .go (by simpa using hbelow)
  · dsimp only
    split
    · exact settles_store hbelow _ _ _
    · exact settles_drop hbelow _ _ _
  all_goals exact .halt

end Code

/-! ### Unwinding -/

theorem settles_unwindCode {below : List Frame} (hbelow : DropFree below) (cause : Unwind)
    (a : Activation) : s.Settles (s.unwindCode cause a below) := by
  unfold State.unwindCode
  split
  · exact .go (by simpa using hbelow)
  · exact .go (by simpa using hbelow.dropsOnTop)
  · split
    · exact .go (by simpa using hbelow)
    · dsimp only
      split <;> exact .go (by simpa using hbelow)

theorem settles_unwindInto {stack : List Frame} (hstack : DropsOnTop stack) (cause : Unwind) :
    s.Settles (s.unwindInto cause stack) := by
  unfold State.unwindInto
  split
  · exact settles_unwindCode ((dropsOnTop_code ..).mp hstack) _ _
  · exact .go (by simpa using hstack)
  · exact .go (by simpa using hstack)
  · exact .go (by simpa using hstack)
  · exact .go (by simpa using hstack)
  · exact .halt
  · split
    · exact .halt
    · exact .land ((dropsOnTop_onTop ..).mp hstack).dropsOnTop
  · split
    · exact .halt
    · exact .go (by simpa using hstack)
  · exact .halt
  · split
    · exact .go (by simpa using hstack)
    · exact .halt
  · exact .halt

/-- A guard that runs no code is dropped at once. -/
theorem settles_runDiscarding {below : List Frame} {entries : List Entry} {cause : Option Unwind}
    (hbelow : DropsOnTop below) (hobeys : entries.all Discipline.tame.allowsEntry = true) :
    s.Settles (s.runDiscarding entries cause below) := by
  unfold State.runDiscarding
  split
  · split
    · exact .go hbelow
    · exact settles_unwindInto hbelow _
  · exact .go (by simpa using hbelow)
  · exact .transfer (by simpa using hbelow)
  · dsimp only
    split
    · exact .go (by simpa using hbelow)
    · simp [Discipline.tame, Discipline.allowsEntry] at hobeys

/-! ### The lowest frames -/

theorem settles_runRoot {below : List Frame} (hbelow : DropFree below) (stage : RootStage) :
    s.Settles (s.runRoot stage below) := by
  unfold State.runRoot
  split
  · exact .halt
  · exact .go (by simpa using hbelow)
  · split <;> exact .go (by simpa using hbelow)
  · exact .go (by simpa using hbelow)
  · exact .halt

theorem settles_run (hstack : DropsOnTop s.stack) (hobeys : s.ObeysNow .tame) : s.Settles s.run := by
  unfold State.run
  split
  · rename_i heq
    rw [heq] at hstack
    exact settles_runCode ((dropsOnTop_code ..).mp hstack) _
  · rename_i heq
    rw [heq] at hstack
    exact settles_runCall ((dropsOnTop_calling ..).mp hstack) _ _
  · rename_i entries cause below heq
    rw [heq] at hstack
    refine settles_runDiscarding ((dropsOnTop_discarding ..).mp hstack) ?_
    have hall := hobeys.1
    rw [heq, Discipline.allowsStack, List.all_cons, Bool.and_eq_true] at hall
    exact hall.1
  · rename_i stage below heq
    rw [heq] at hstack
    unfold State.runBase
    split
    · exact .transfer (by simpa using hstack)
    · exact .halt
  · rename_i heq
    rw [heq] at hstack
    exact settles_runRoot ((dropsOnTop_root ..).mp hstack) _
  all_goals exact .halt

/-! ### Arrivals -/

theorem settles_conclude {below : List Frame} (hbelow : DropFree below) (scene : Scene)
    (fiber : ContextId) (reply : Reply) (purpose : ProbePurpose) :
    s.Settles (s.conclude scene below fiber reply purpose) := by
  unfold State.conclude
  split
  · split
    · exact .go (by simpa using hbelow)
    · exact .halt
  · split
    · dsimp only
      split
      · exact settles_depart hbelow _ _ _ _
      · exact .go (by simpa using hbelow)
    · exact .halt

theorem settles_callBody {below : List Frame} (hbelow : DropFree below) (record : Record)
    (caller : Handle) : s.Settles (s.callBody record caller below) := by
  unfold State.callBody
  split
  · exact .go (by simpa [dropFree_cons, Frame.isDrop] using hbelow)
  · exact .halt

theorem settles_receive {source : ContextId} {message : Message} (hstack : DropsOnTop s.stack)
    (hcontrol : s.control = .landed source (.message message)) :
    s.Settles (s.receive source message) := by
  unfold State.receive
  split
  · rename_i heq
    rw [heq] at hstack
    split
    · exact .go (by simpa using hstack)
    · exact .halt
  · rename_i heq
    rw [heq] at hstack
    split
    · exact settles_conclude ((dropsOnTop_calling ..).mp hstack) _ _ _ _
    · exact .halt
    · exact .halt
  · rename_i heq
    rw [heq] at hstack
    split
    · exact .go (by simpa using hstack)
    · exact .go (by simpa using hstack)
    · exact .answer hcontrol
    · split
      · exact .halt
      · exact .go (by simpa using hstack)
  · rename_i heq
    rw [heq] at hstack
    split
    · exact .go ((dropsOnTop_dropping ..).mp hstack)
    · exact .halt
  · exact .halt
  · rename_i heq
    rw [heq] at hstack
    have hbelow := (dropsOnTop_base ..).mp hstack
    split
    · exact settles_callBody hbelow _ _
    · exact settles_callBody hbelow _ _
    · exact .answer hcontrol
    · exact .go (by simpa using hbelow)
  all_goals exact .halt

theorem settles_step (hstack : DropsOnTop s.stack) (hobeys : s.ObeysNow .tame) :
    s.Settles s.step := by
  unfold State.step
  split
  · exact settles_run hstack hobeys
  · rename_i source signal hcontrol
    cases signal with
    | message message => exact settles_receive hstack hcontrol
    | onTop => exact .call hcontrol
    | exit => exact .release hcontrol
    | start record =>
        simp only [land, State.start]
        split
        · rename_i heq
          rw [heq] at hstack
          exact .transfer (by simpa using hstack)
        · exact .halt
        · exact .halt

/-! ## All states -/

/-- Drops are under way at the top of stacks only. -/
def Settled (s : State) : Prop := forall c stack, s.stackOf c = some stack -> DropsOnTop stack

theorem Touches.dropsOnTop {c : ContextId} {stack stack' : List Frame}
    (h : s.Touches c stack stack') (hstack : DropsOnTop stack) : DropsOnTop stack' := by
  cases h with
  | none => exact hstack
  | reply reply hcontrol => exact (dropsOnTop_calling ..).mpr ((dropsOnTop_calling ..).mp hstack)
  | function hcontrol => exact (dropsOnTop_calling ..).mpr ((dropsOnTop_calling ..).mp hstack)

/-- What the context that made a step has left of its stack. -/
theorem Sound.dropsOnTop {stack' : List Frame} (h : s.Sound lost) (hobeys : s.ObeysNow .tame)
    (hstack : DropsOnTop s.stack) (hstep : s.step = .active s')
    (hstack' : s'.stackOf s.running = some stack') : DropsOnTop stack' := by
  have hsettles := settles_step hstack hobeys
  generalize hnext : s.step = next at hsettles
  have hsame := hnext.symm.trans hstep
  cases hsettles with
  | go hdrops | land hdrops =>
      cases hsame
      rw [stackOf_go, if_pos rfl] at hstack'
      exact Option.some.inj hstack' ▸ hdrops
  | transfer hdrops =>
      rw [h.stackOf_transfer hsame, if_pos rfl] at hstack'
      exact Option.some.inj hstack' ▸ hdrops
  | launch hdrops =>
      have hne := ne_running_of_new h.listed (h.new_of_launch hnext hstep)
      rw [h.stackOf_launch hnext hstep hne.symm, if_pos rfl] at hstack'
      exact Option.some.inj hstack' ▸ hdrops
  | answer hcontrol =>
      cases (h.stackOf_of_answer hcontrol hsame).symm.trans hstack'
      exact hstack
  | call hcontrol =>
      rcases h.stackOf_of_call hcontrol hsame with ⟨a, hcalled⟩
      cases hcalled.symm.trans hstack'
      have hstands := h.stands
      simp only [Stands, hcontrol] at hstands
      exact (dropsOnTop_code ..).mpr (dropFree_cons.mpr ⟨rfl, hstack.dropFree_of_needOf hstands.2⟩)
  | release hcontrol =>
      cases (h.stackOf_of_release hcontrol hsame).symm.trans hstack'
      exact hstack
  | halt => cases hsame

theorem Settled.step (hsettled : s.Settled) (h : s.Sound lost) (hobeys : s.ObeysNow .tame)
    (hstep : s.step = .active s') : s'.Settled := by
  intro c stack' hstack'
  by_cases hrunning : c = s.running
  · subst hrunning
    exact h.dropsOnTop hobeys (hsettled _ _ stackOf_running) hstep hstack'
  · rcases h.touches hstep hrunning hstack' with ⟨-, rfl, -⟩ | ⟨stack, hstack, htouches⟩
    · exact (dropsOnTop_base ..).mpr (fun _ hf => nomatch hf)
    · exact htouches.dropsOnTop (hsettled c stack hstack)

end State

theorem Program.Reaches.settled {p : Program} {past : List State} {s : State}
    (h : p.Reaches past s) (hmain : Discipline.tame.allowsAll p.main = true) : s.Settled := by
  induction h with
  | start =>
      intro c stack hstack
      unfold State.stackOf at hstack
      split at hstack
      · cases hstack
        exact (dropsOnTop_code ..).mpr (by simp [DropFree, Frame.isDrop])
      · rename_i hc
        have hne : c ≠ mainContext := hc
        have hmain : (c == mainContext) = false := by simpa using hne
        simp [State.parked?, Program.start, List.lookup_cons, hmain] at hstack
  | step hbefore hstep ih => exact ih.step hbefore.sound (hbefore.obeys hmain).1 hstep

/-! ## What can be resumed -/

namespace Discipline

theorem isPlain_of_tame {entries : List Entry} (h : entries.all tame.allowsEntry = true) :
    entries.all Entry.isPlain = true := by
  rw [List.all_eq_true] at h ⊢
  intro e he
  have hallows := h e he
  cases e with
  | slot name handle => rfl
  | guard label onDrop =>
      simpa [tame, allowsEntry, Entry.isPlain] using (Bool.and_eq_true_iff.mp hallows).1

theorem isMild_of_tame {a : Activation} (h : tame.allowsCode a = true) :
    a.blocks.all Block.isMild = true := by
  rw [allowsCode, List.all_eq_true] at h
  rw [List.all_eq_true]
  intro b hb
  have hallows := h b hb
  simp only [allowsBlock, Bool.and_eq_true] at hallows
  rcases hallows with ⟨⟨hkind, -⟩, hentries⟩
  rw [Block.isMild, Bool.and_eq_true]
  refine ⟨isPlain_of_tame hentries, ?_⟩
  split
  · rename_i swallow heq
    simpa [heq, allowsKind, tame] using hkind
  · rfl

end Discipline

theorem DropFree.isMild {stack : List Frame} (h : DropFree stack)
    (hobeys : Discipline.tame.allowsStack stack = true) : stack.all Frame.isMild = true := by
  rw [Discipline.allowsStack, List.all_eq_true] at hobeys
  rw [List.all_eq_true]
  intro f hf
  have hallows := hobeys f hf
  cases f with
  | code a => exact Discipline.isMild_of_tame hallows
  | calling call a => exact Discipline.isMild_of_tame (Bool.and_eq_true_iff.mp hallows).2
  | discarding entries cause => cases h _ hf
  | dropping | onTop source | base stage | root stage => rfl

/-! ### Handles only -/

/-- Contexts are held by their handles. -/
def HandlesOnly (xs : List Holding) : Prop := forall need c, .token need c ∈ xs -> need = .handle

namespace HandlesOnly

theorem nil : HandlesOnly [] := nofun

theorem append {xs ys : List Holding} (hxs : HandlesOnly xs) (hys : HandlesOnly ys) :
    HandlesOnly (xs ++ ys) :=
  fun need c h => (List.mem_append.mp h).elim (hxs need c) (hys need c)

theorem flatMap {α : Type} {xs : List α} {f : α -> List Holding}
    (h : forall a, a ∈ xs -> HandlesOnly (f a)) : HandlesOnly (xs.flatMap f) := by
  intro need c hmem
  rcases List.mem_flatMap.mp hmem with ⟨a, ha, htoken⟩
  exact h a ha need c htoken

theorem handle (h : Handle) : HandlesOnly h.holdings := by
  cases h <;> simp [HandlesOnly, Handle.holdings]

theorem entries (es : List Entry) : HandlesOnly (entryHoldings es) := by
  apply flatMap
  intro e _
  cases e with
  | slot name h => exact handle h
  | guard label onDrop => simp [HandlesOnly, Entry.holdings]

theorem code (a : Activation) : HandlesOnly a.holdings :=
  append (handle _) (flatMap fun b _ => entries b.entries)

theorem call (call : Call) : HandlesOnly call.holdings := by
  cases call with
  | create slot | failBuild cause => exact nil
  | probe query reply purpose =>
      cases purpose with
      | question question slot => exact nil
      | check switch onTop => exact entries _
  | resume host onTop target => exact entries _
  | refuse refusal slot onRefusal => exact handle _
  | store pending n => exact flatMap fun entry _ => handle entry.2

theorem world (w : World) : HandlesOnly w.holdings := flatMap fun entry _ => handle entry.2

/-- Where no drop is under way, and the fiber has not come to its end, no unwind is to be reported. -/
theorem stack {k : StackKind} {stack : List Frame} (h : DropFree stack) (hstacked : Stacked k stack)
    (hneed : needOf stack = some .handle) : HandlesOnly (stackHoldings stack) := by
  apply flatMap
  intro f hf
  cases f with
  | code a => exact code a
  | calling c a => exact append (call c) (code a)
  | discarding es cause => exact nomatch h _ hf
  | dropping | onTop source | root stage => exact nil
  | base stage =>
      cases stage with
      | unborn | busy lease | exited lease => exact nil
      | idle record => exact entries _
      | leaving lease ending =>
          rcases hstacked.of_mem_leaving hf with rfl | ⟨requester, -, hdrops⟩
          · cases hneed
          · cases hdrops <;> cases hneed

end HandlesOnly

namespace State

variable {s : State} {lost : List ContextId} {c fiber : ContextId}

theorem held_of_path (hheld : .token .handle fiber ∈ s.holdings)
    (hpath : Relation.ReflTransGen (HoldsIn s.contexts) fiber c) : .token .handle c ∈ s.holdings := by
  cases hpath with
  | refl => exact hheld
  | tail _ hstep =>
      rcases hstep with ⟨stack, hstack, hmem⟩
      rw [holdings, List.mem_append, parkedHoldings, List.mem_flatMap]
      exact Or.inr ⟨_, mem_of_lookup hstack, hmem⟩

/-- The stack of a context that somebody has a handle of. -/
theorem Sound.parked_of_handle {stack : List Frame} (h : s.Sound lost)
    (hheld : .token .handle c ∈ s.holdings) (hstack : s.parked? c = some stack) :
    c ≠ s.running ∧ needOf stack = some .handle ∧ Stacked (homeOf c) stack := by
  rcases h.parked_of_token (List.count_pos_iff.mpr hheld) with ⟨there, hthere, hneed⟩
  rw [hstack, Option.some.injEq] at hthere
  subst hthere
  have hne := h.ne_running hstack hneed
  exact ⟨hne, hneed, (h.parked c _ hne hstack).1⟩

theorem Settled.dropFree {stack : List Frame} (hsettled : s.Settled) (h : s.Sound lost)
    (hheld : .token .handle c ∈ s.holdings) (hstack : s.parked? c = some stack) : DropFree stack := by
  rcases h.parked_of_handle hheld hstack with ⟨hne, hneed, -⟩
  exact (hsettled c stack ((stackOf_of_ne hne).trans hstack)).dropFree_of_needOf hneed

/-- As long as the main program runs, all that goes with a handle unwinds without code being run. -/
theorem Settled.mildFrom (hsettled : s.Settled) (h : s.Sound lost) (hobeys : s.Obeys .tame)
    (hmain : s.running = mainContext) (hheld : .token .handle fiber ∈ s.holdings) :
    MildFrom s.contexts fiber := by
  intro c hpath
  have hc := held_of_path hheld hpath
  refine ⟨?_, fun stack hstack => ?_⟩
  · rw [<- hmain]
    exact h.ne_running_of_token hc
  · exact (hsettled.dropFree h hc hstack).isMild (hobeys.2 c stack (mem_of_lookup hstack))

/-- All contexts in reach are held by handles, where the running one has got nothing else. -/
theorem Reached.heldFrom (hreached : s.Reached c) (hsettled : s.Settled) (h : s.Sound lost)
    (hpool : HandlesOnly s.pool) : HeldFrom s.contexts s.pool c := by
  induction hreached with
  | pool need hmem =>
      rw [hpool _ _ hmem] at hmem
      exact ⟨_, hmem, .refl⟩
  | held need _ hstack hmem ih =>
      rcases ih with ⟨first, hfirst, hpath⟩
      have hheld := held_of_path (List.mem_append_left _ hfirst) hpath
      rcases h.parked_of_handle hheld hstack with ⟨-, hneed, hstacked⟩
      rw [HandlesOnly.stack (hsettled.dropFree h hheld hstack) hstacked hneed _ _ hmem] at hmem
      exact ⟨first, hfirst, hpath.tail ⟨_, hstack, hmem⟩⟩

end State

end Fibers
