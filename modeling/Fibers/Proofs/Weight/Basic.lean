import Fibers.Proofs.Layout
import Mathlib.Algebra.GroupWithZero.Nat

/-!
# How much there is left to do

Every part of a state is given a weight, at least as great as the number of steps that it can still
cause: an operation by the work that is in it, a handle by what abandoning its context costs those
who drop it, a frame by what it takes to go on or to unwind.  What code does to its slots moves
weight about, and makes none but for a slot that is declared.

The rounds at the end of a run are a case of their own, since each of them goes through all shared
slots.  So a shared slot weighs as much as there are rounds left, which is a parameter here.
-/

namespace Fibers

/-! ## Values -/

def codeWeight (code : List Op) : Nat := 256 * Op.workOf code

def Handle.weight : Handle -> Nat
  | empty => 0
  | live _ => 32

/-- The weight of an entry that is declared or captured. -/
def Entry.weight : Entry -> Nat
  | slot _ h => 16 + h.weight
  | guard _ onDrop => 64 + codeWeight onDrop

/-- The weight of an entry that is about to be dropped. -/
def Entry.dropWeight : Entry -> Nat
  | slot _ _ => 8
  | guard _ onDrop => 48 + codeWeight onDrop

def entriesWeight (entries : List Entry) : Nat := (entries.map Entry.weight).sum

def dropWeight (entries : List Entry) : Nat := (entries.map Entry.dropWeight).sum

def Closure.weight (f : Closure) : Nat := entriesWeight f.captured + codeWeight f.code + 128

/-- The weight of a function that may have been called. -/
def leftoverWeight (f : Option Closure) : Nat := f.elim 0 Closure.weight

/-! ## Code -/

def BlockKind.weight : BlockKind -> Nat
  | rounds left code | whileLive _ left code => left * (2048 + codeWeight code)
  | _ => 0

def Block.weight (b : Block) : Nat :=
  b.kind.weight + codeWeight b.code + entriesWeight b.entries + 16

def blocksWeight (blocks : List Block) : Nat := (blocks.map Block.weight).sum

def Flow.weight : Flow -> Nat
  | onward => 3
  | leavingLoop => 2
  | returning result => 1 + result.weight

def Activation.weight (a : Activation) : Nat := blocksWeight a.blocks + a.flow.weight + 4

/-! ## Calls -/

def ProbePurpose.weight : ProbePurpose -> Nat
  | question _ _ => 0
  | check _ onTop => leftoverWeight onTop

def pendingWeight (pending : List (SlotName × Handle)) : Nat :=
  (pending.map fun entry => 160 + entry.2.weight).sum

def Call.weight : Call -> Nat
  | create _ => 256
  | failBuild _ => 4
  | probe _ none purpose => 560 + purpose.weight
  | probe _ (some _) purpose => 512 + purpose.weight
  | resume _ onTop _ => 200 + leftoverWeight onTop
  | refuse refusal _ _ => 240 + refusal.handle.weight
  | store pending _ => 2 + pendingWeight pending

/-! ## Stacks -/

def Record.weight (r : Record) : Nat := leftoverWeight r.body + 64

def FiberStage.weight : FiberStage -> Nat
  | unborn => 0
  | idle record => record.weight
  | busy _ => 16
  | leaving _ _ => 12
  | exited _ => 4

/-- How many rounds can still begin. -/
def RootStage.rounds : RootStage -> Nat
  | program | ending => drainRounds
  | draining roundsLeft _ _ _ => roundsLeft

def RootStage.weight : RootStage -> Nat
  | program => 104
  | ending => 102
  | draining roundsLeft names _ _ => roundsLeft + names.length + 1

def Frame.weight : Frame -> Nat
  | code a => a.weight
  | calling call a => call.weight + a.weight
  | discarding entries _ => dropWeight entries + 2
  | dropping => 1
  | onTop _ => 8
  | base stage => stage.weight
  | root stage => stage.weight

def stackWeight (stack : List Frame) : Nat := (stack.map Frame.weight).sum

/-! ## States -/

def Signal.weight : Signal -> Nat
  | message .handover => 32
  | message .farewell => 0
  | message .eviction => 4
  | message .query => 0
  | onTop => 0
  | exit => 0
  | start record => record.elim 0 fun r => r.weight + 40

def Control.weight : Control -> Nat
  | run => 0
  | landed _ signal => signal.weight

def globalsWeight (rounds : Nat) (globals : List (String × Handle)) : Nat :=
  (globals.map fun entry => rounds + entry.2.weight).sum

def World.weight (rounds : Nat) (w : World) : Nat := globalsWeight rounds w.globals

def contextsWeight (contexts : List (ContextId × List Frame)) : Nat :=
  (contexts.map fun entry => stackWeight entry.2).sum

/-- The weight of a state from which so many rounds are left. -/
def State.weight (rounds : Nat) (s : State) : Nat :=
  s.world.weight rounds + stackWeight s.stack + contextsWeight s.contexts + s.control.weight

def Scene.weight (rounds : Nat) (s : Scene) : Nat := s.world.weight rounds + s.code.weight

/-! ## Sums -/

@[simp] theorem codeWeight_nil : codeWeight [] = 0 := rfl

@[simp] theorem codeWeight_cons (op : Op) (rest : List Op) :
    codeWeight (op :: rest) = 256 * op.work + codeWeight rest := by
  simp only [codeWeight, Op.workOf, Nat.mul_add]

@[simp] theorem codeWeight_append (ops more : List Op) :
    codeWeight (ops ++ more) = codeWeight ops + codeWeight more := by
  induction ops with
  | nil => simp
  | cons op rest ih => simp [ih, Nat.add_assoc]

@[simp] theorem entriesWeight_nil : entriesWeight [] = 0 := rfl

@[simp] theorem entriesWeight_cons (e : Entry) (rest : List Entry) :
    entriesWeight (e :: rest) = e.weight + entriesWeight rest := List.sum_cons

@[simp] theorem entriesWeight_append (es more : List Entry) :
    entriesWeight (es ++ more) = entriesWeight es + entriesWeight more := by
  simp [entriesWeight]

@[simp] theorem entriesWeight_reverse (es : List Entry) :
    entriesWeight es.reverse = entriesWeight es := by
  simp [entriesWeight, List.sum_reverse]

@[simp] theorem dropWeight_nil : dropWeight [] = 0 := rfl

@[simp] theorem dropWeight_cons (e : Entry) (rest : List Entry) :
    dropWeight (e :: rest) = e.dropWeight + dropWeight rest := List.sum_cons

@[simp] theorem dropWeight_append (es more : List Entry) :
    dropWeight (es ++ more) = dropWeight es + dropWeight more := by
  simp [dropWeight]

@[simp] theorem blocksWeight_nil : blocksWeight [] = 0 := rfl

@[simp] theorem blocksWeight_cons (b : Block) (outer : List Block) :
    blocksWeight (b :: outer) = b.weight + blocksWeight outer := List.sum_cons

@[simp] theorem pendingWeight_nil : pendingWeight [] = 0 := rfl

@[simp] theorem pendingWeight_cons (slot : SlotName) (h : Handle)
    (rest : List (SlotName × Handle)) :
    pendingWeight ((slot, h) :: rest) = 160 + h.weight + pendingWeight rest := List.sum_cons

@[simp] theorem stackWeight_nil : stackWeight [] = 0 := rfl

@[simp] theorem stackWeight_cons (f : Frame) (below : List Frame) :
    stackWeight (f :: below) = f.weight + stackWeight below := List.sum_cons

@[simp] theorem stackWeight_append (above below : List Frame) :
    stackWeight (above ++ below) = stackWeight above + stackWeight below := by
  simp [stackWeight]

@[simp] theorem globalsWeight_cons (rounds : Nat) (name : String) (h : Handle)
    (rest : List (String × Handle)) :
    globalsWeight rounds ((name, h) :: rest) = rounds + h.weight + globalsWeight rounds rest :=
  List.sum_cons

@[simp] theorem contextsWeight_cons (c : ContextId) (stack : List Frame)
    (rest : List (ContextId × List Frame)) :
    contextsWeight ((c, stack) :: rest) = stackWeight stack + contextsWeight rest := List.sum_cons

/-- One round less, and each shared slot weighs that much less. -/
theorem globalsWeight_succ (rounds : Nat) (globals : List (String × Handle)) :
    globalsWeight (rounds + 1) globals = globalsWeight rounds globals + globals.length := by
  induction globals with
  | nil => rfl
  | cons entry rest ih =>
      rcases entry with ⟨name, h⟩
      simp only [globalsWeight_cons, ih, List.length_cons]
      omega

/-! ## Entries that go -/

@[simp] theorem Handle.weight_empty : Handle.empty.weight = 0 := rfl

@[simp] theorem Handle.weight_live (c : ContextId) : (Handle.live c).weight = 32 := rfl

/-- Entries that are there get lighter when they are about to be dropped. -/
theorem dropWeight_le (entries : List Entry) :
    dropWeight entries + 8 * entries.length ≤ entriesWeight entries := by
  induction entries with
  | nil => exact Nat.le_refl 0
  | cons e rest ih =>
      have hfirst : e.dropWeight + 8 ≤ e.weight := by
        cases e <;> simp only [Entry.dropWeight, Entry.weight] <;> omega
      simp only [dropWeight_cons, entriesWeight_cons, List.length_cons]
      omega

theorem dropWeight_pending (pending : List (SlotName × Handle)) :
    dropWeight (pending.flatMap fun entry => entry.2.entries) ≤ pendingWeight pending := by
  induction pending with
  | nil => exact Nat.le_refl 0
  | cons entry rest ih =>
      rcases entry with ⟨slot, h⟩
      have hfirst : dropWeight h.entries ≤ 160 + h.weight := by
        cases h with
        | empty => exact Nat.zero_le _
        | live c => exact Nat.le_add_right_of_le (Nat.le_of_ble_eq_true rfl)
      simp only [List.flatMap_cons, dropWeight_append, pendingWeight_cons]
      omega

/-- Frames under which entries are dropped first weigh no more than entries and frames. -/
theorem stackWeight_dropFirst (entries : List Entry) (stack : List Frame) :
    stackWeight (dropFirst entries stack) ≤ entriesWeight entries + stackWeight stack := by
  cases entries with
  | nil => exact Nat.le_add_left _ _
  | cons e rest =>
      have hless := dropWeight_le (e :: rest)
      simp only [dropFirst, stackWeight_cons, Frame.weight, List.length_cons] at hless ⊢
      omega

theorem stackWeight_dropHandle (h : Handle) (stack : List Frame) :
    stackWeight (dropFirst h.entries stack) ≤ h.weight + stackWeight stack := by
  cases h with
  | empty => exact Nat.le_add_left _ _
  | live c =>
      simp only [Handle.entries, dropFirst, stackWeight_cons, Frame.weight, dropWeight_cons,
        Entry.unnamed, Entry.dropWeight, dropWeight_nil, Handle.weight]
      omega

theorem entriesWeight_leftover (f : Option Closure) :
    entriesWeight (Closure.leftover f) ≤ leftoverWeight f := by
  cases f with
  | none => exact Nat.le_refl 0
  | some f =>
      simp only [Closure.leftover, leftoverWeight, Option.elim_some, Closure.weight]
      omega

/-! ## What is captured -/

theorem entriesWeight_guards (labels : List String) :
    entriesWeight (labels.map (Entry.guard · [])) = 64 * labels.length := by
  induction labels with
  | nil => rfl
  | cons label rest ih =>
      simp only [List.map_cons, entriesWeight_cons, ih, Entry.weight, codeWeight_nil,
        List.length_cons]
      omega

theorem entriesWeight_slots (taken : List (SlotName × Handle)) :
    entriesWeight (taken.map fun x => Entry.slot x.1 x.2) ≤ pendingWeight taken := by
  induction taken with
  | nil => exact Nat.le_refl 0
  | cons entry rest ih =>
      rcases entry with ⟨slot, h⟩
      simp only [List.map_cons, entriesWeight_cons, Entry.weight, pendingWeight_cons]
      omega

/-! ## Slots -/

theorem exchangeEntry_weight {name : SlotName} {h old : Handle} {es es' : List Entry}
    (hx : exchangeEntry name h es = some (old, es')) :
    entriesWeight es' + old.weight = entriesWeight es + h.weight := by
  induction es generalizing es' with
  | nil => simp [exchangeEntry] at hx
  | cons e rest ih =>
      cases e with
      | slot n k =>
          by_cases hn : n = name
          · simp only [exchangeEntry, hn, if_true, Option.some.injEq, Prod.mk.injEq] at hx
            rcases hx with ⟨rfl, rfl⟩
            simp only [entriesWeight_cons, Entry.weight]
            omega
          · simp only [exchangeEntry, hn, if_false, Option.map_eq_some_iff] at hx
            rcases hx with ⟨⟨o, r⟩, hr, heq⟩
            simp only [Prod.mk.injEq] at heq
            rcases heq with ⟨rfl, rfl⟩
            have hrest := ih hr
            simp only [entriesWeight_cons]
            omega
      | guard label onDrop =>
          simp only [exchangeEntry, Option.map_eq_some_iff] at hx
          rcases hx with ⟨⟨o, r⟩, hr, heq⟩
          simp only [Prod.mk.injEq] at heq
          rcases heq with ⟨rfl, rfl⟩
          have hrest := ih hr
          simp only [entriesWeight_cons]
          omega

theorem exchangeBlock_weight {name : SlotName} {h old : Handle} {bs bs' : List Block}
    (hx : exchangeBlock name h bs = some (old, bs')) :
    blocksWeight bs' + old.weight = blocksWeight bs + h.weight := by
  induction bs generalizing bs' with
  | nil => simp [exchangeBlock] at hx
  | cons b outer ih =>
      cases he : exchangeEntry name h b.entries with
      | some found =>
          rcases found with ⟨o, entries⟩
          simp only [exchangeBlock, he, Option.some.injEq, Prod.mk.injEq] at hx
          rcases hx with ⟨rfl, rfl⟩
          have hfirst := exchangeEntry_weight he
          simp only [blocksWeight_cons, Block.weight]
          omega
      | none =>
          simp only [exchangeBlock, he, Option.map_eq_some_iff] at hx
          rcases hx with ⟨⟨o, r⟩, hr, heq⟩
          simp only [Prod.mk.injEq] at heq
          rcases heq with ⟨rfl, rfl⟩
          have hrest := ih hr
          simp only [blocksWeight_cons]
          omega

theorem exchangeShared_weight (rounds : Nat) {name : String} {h old : Handle}
    {gs gs' : List (String × Handle)} (hx : exchangeShared name h gs = some (old, gs')) :
    globalsWeight rounds gs' + old.weight = globalsWeight rounds gs + h.weight := by
  induction gs generalizing gs' with
  | nil => simp [exchangeShared] at hx
  | cons g rest ih =>
      rcases g with ⟨n, k⟩
      by_cases hn : n = name
      · simp only [exchangeShared, hn, if_true, Option.some.injEq, Prod.mk.injEq] at hx
        rcases hx with ⟨rfl, rfl⟩
        simp only [globalsWeight_cons]
        omega
      · simp only [exchangeShared, hn, if_false, Option.map_eq_some_iff] at hx
        rcases hx with ⟨⟨o, r⟩, hr, heq⟩
        simp only [Prod.mk.injEq] at heq
        rcases heq with ⟨rfl, rfl⟩
        have hrest := ih hr
        simp only [globalsWeight_cons]
        omega

theorem Activation.weight_take (a : Activation) (name : SlotName) :
    (a.take name).2.weight + (a.take name).1.weight = a.weight := by
  cases hx : exchangeBlock name .empty a.blocks with
  | none => simp only [take, hx, Handle.weight_empty, Nat.add_zero]
  | some found =>
      have hblocks := exchangeBlock_weight hx
      simp only [take, hx, weight, Handle.weight_empty] at hblocks ⊢
      omega

theorem Activation.weight_put (a : Activation) (name : SlotName) (h : Handle) :
    (a.put name h).2.weight + (a.put name h).1.weight ≤ a.weight + h.weight + 16 := by
  cases hx : exchangeBlock name h a.blocks with
  | some found =>
      have hblocks := exchangeBlock_weight hx
      simp only [put, hx, weight] at hblocks ⊢
      omega
  | none =>
      cases hd : a.blocks with
      | nil =>
          rw [hd] at hx
          simp only [put, hx, hd, declareEntry]
          omega
      | cons b outer =>
          rw [hd] at hx
          simp only [put, hx, hd, declareEntry, weight, blocksWeight_cons, Block.weight,
            entriesWeight_cons, Entry.weight, Handle.weight_empty]
          omega

theorem World.weight_take (rounds : Nat) (w : World) (name : String) :
    (w.take name).2.weight rounds + (w.take name).1.weight = w.weight rounds := by
  cases hx : exchangeShared name .empty w.globals with
  | none => simp only [take, hx, Handle.weight_empty, Nat.add_zero]
  | some found =>
      have hglobals := exchangeShared_weight rounds hx
      simp only [take, hx, weight, Handle.weight_empty] at hglobals ⊢
      omega

theorem World.weight_put (rounds : Nat) (w : World) (name : String) (h : Handle) :
    (w.put name h).2.weight rounds + (w.put name h).1.weight ≤
      w.weight rounds + h.weight + rounds := by
  cases hx : exchangeShared name h w.globals with
  | some found =>
      have hglobals := exchangeShared_weight rounds hx
      simp only [put, hx, weight] at hglobals ⊢
      omega
  | none =>
      simp only [put, hx, weight, globalsWeight_cons, Handle.weight_empty]
      omega

namespace Scene

variable (rounds : Nat) (s : Scene)

theorem weight_take (slot : SlotName) :
    (s.take slot).2.weight rounds + (s.take slot).1.weight = s.weight rounds := by
  cases slot with
  | own name =>
      have hcode := s.code.weight_take (.own name)
      simp only [take, weight]
      omega
  | shared name =>
      have hworld := s.world.weight_take rounds name
      simp only [take, weight]
      omega

/-- A slot that is put into may have to be declared. -/
theorem weight_put {rounds : Nat} (hrounds : rounds ≤ 100) (slot : SlotName) (h : Handle) :
    (s.put slot h).2.weight rounds + (s.put slot h).1.weight ≤
      s.weight rounds + h.weight + 100 := by
  cases slot with
  | own name =>
      have hcode := s.code.weight_put (.own name) h
      simp only [put, weight]
      omega
  | shared name =>
      have hworld := s.world.weight_put rounds name h
      simp only [put, weight]
      omega

theorem weight_look {rounds : Nat} (hrounds : rounds ≤ 100) (slot : SlotName) :
    (s.look slot).2.weight rounds ≤ s.weight rounds + 100 := by
  have htake := s.weight_take rounds slot
  have hput := (s.take slot).2.weight_put hrounds slot (s.take slot).1
  simp only [look]
  omega

theorem weight_takeAll (slots : List SlotName) :
    (s.takeAll slots).2.weight rounds + pendingWeight (s.takeAll slots).1 =
      s.weight rounds + 160 * slots.length := by
  induction slots generalizing s with
  | nil => rfl
  | cons slot rest ih =>
      have htake := s.weight_take rounds slot
      have hrest := ih (s.take slot).2
      simp only [takeAll, pendingWeight_cons, List.length_cons]
      omega

/-- What a closure captures is moved, but for the guards that are made. -/
theorem weight_capture (label : String) (argument : SlotName) (captures : List String)
    (moves : List SlotName) (code : List Op) :
    (s.capture label argument captures moves code).2.weight rounds +
        (s.capture label argument captures moves code).1.weight ≤
      s.weight rounds + 64 * captures.length + 160 * moves.length + codeWeight code + 128 := by
  have hmoved := weight_takeAll rounds
    { s with world := { s.world with liveGuards := s.world.liveGuards + captures.length } } moves
  have hsame : Scene.weight rounds
      { s with world := { s.world with liveGuards := s.world.liveGuards + captures.length } } =
        s.weight rounds := rfl
  rw [hsame] at hmoved
  generalize htaken : Scene.takeAll
    { s with world := { s.world with liveGuards := s.world.liveGuards + captures.length } } moves =
      taken at hmoved
  rcases taken with ⟨moved, after⟩
  have hslots := entriesWeight_slots moved
  simp only [capture, htaken, Closure.weight, entriesWeight_reverse, entriesWeight_append,
    entriesWeight_guards] at hmoved ⊢
  omega

@[simp] theorem weight_note (n : Note) : (s.note n).weight rounds = s.weight rounds := rfl

end Scene

end Fibers
