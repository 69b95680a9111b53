import Fibers.Run

/-!
# Disciplined programs

A discipline forbids some of what a program may do: to discard forced unwinds, or to run code where
guards are dropped.  A program that obeys it when it starts obeys it in every state, since all code
of a state is part of the program.
-/

namespace Fibers

/-- What a program may do. -/
structure Discipline where
  /-- Discard a forced unwind. -/
  mayLose : Bool
  /-- Run code where a guard is dropped. -/
  mayCleanUp : Bool

namespace Discipline

/-- Everything but the discarding of forced unwinds. -/
def lossless : Discipline := ⟨false, true⟩

/-! ## Code -/

mutual

def allows (d : Discipline) : Op -> Bool
  | .create _ _ _ body => d.allowsAll body
  | .resumeWith _ _ _ onTop => d.allowsAll onTop
  | .guard _ onDrop => (d.mayCleanUp || onDrop.isEmpty) && d.allowsAll onDrop
  | .scope ops | .rounds _ ops | .whileLive _ _ ops => d.allowsAll ops
  | .ifEmpty _ yes no | .ifCell _ _ yes no => d.allowsAll yes && d.allowsAll no
  | .attempt swallow ops => (d.mayLose || !swallow) && d.allowsAll ops
  | _ => true

def allowsAll (d : Discipline) : List Op -> Bool
  | [] => true
  | op :: rest => d.allows op && d.allowsAll rest

end

/-! ## What is open, captured or parked -/

def allowsEntry (d : Discipline) : Entry -> Bool
  | .slot _ _ => true
  | .guard _ onDrop => (d.mayCleanUp || onDrop.isEmpty) && d.allowsAll onDrop

def allowsClosure (d : Discipline) (f : Closure) : Bool :=
  f.captured.all d.allowsEntry && d.allowsAll f.code

def allowsKind (d : Discipline) : BlockKind -> Bool
  | .body | .scope => true
  | .rounds _ code | .whileLive _ _ code => d.allowsAll code
  | .attempt swallow => d.mayLose || !swallow

def allowsBlock (d : Discipline) (b : Block) : Bool :=
  d.allowsKind b.kind && d.allowsAll b.code && b.entries.all d.allowsEntry

def allowsCode (d : Discipline) (a : Activation) : Bool := a.blocks.all d.allowsBlock

def allowsCall (d : Discipline) : Call -> Bool
  | .probe _ _ (.check _ onTop) => onTop.toList.all d.allowsClosure
  | .resume _ onTop _ => onTop.toList.all d.allowsClosure
  | _ => true

def allowsFrame (d : Discipline) : Frame -> Bool
  | .code a => d.allowsCode a
  | .calling call a => d.allowsCall call && d.allowsCode a
  | .discarding entries _ => entries.all d.allowsEntry
  | .base (.idle record) => record.body.toList.all d.allowsClosure
  | _ => true

def allowsStack (d : Discipline) (stack : List Frame) : Bool := stack.all d.allowsFrame

def allowsControl (d : Discipline) : Control -> Bool
  | .landed _ (.start record) => record.toList.all fun r => r.body.toList.all d.allowsClosure
  | _ => true

end Discipline

/-- What the running context has at hand obeys a discipline. -/
def State.ObeysNow (s : State) (d : Discipline) : Prop :=
  d.allowsStack s.stack = true ∧ d.allowsControl s.control = true

/-- All code of a state obeys a discipline. -/
def State.Obeys (s : State) (d : Discipline) : Prop :=
  s.ObeysNow d ∧ forall c stack, (c, stack) ∈ s.contexts -> d.allowsStack stack = true

/-! ## Code that goes on -/

namespace Discipline

variable {d : Discipline}

@[simp] theorem allowsAll_append (ops more : List Op) :
    d.allowsAll (ops ++ more) = (d.allowsAll ops && d.allowsAll more) := by
  induction ops with
  | nil => simp [allowsAll]
  | cons op rest ih => simp [allowsAll, ih, Bool.and_assoc]

@[simp] theorem allowsEntry_handle (h : Handle) : h.entries.all d.allowsEntry = true := by
  cases h <;> rfl

theorem allowsEntry_pending (pending : List (SlotName × Handle)) :
    (pending.flatMap fun entry => entry.2.entries).all d.allowsEntry = true := by
  induction pending with
  | nil => rfl
  | cons entry rest ih => simp only [List.flatMap_cons, List.all_append, allowsEntry_handle, ih,
      Bool.and_self]

theorem allowsEntry_leftover {f : Option Closure} (h : f.toList.all d.allowsClosure = true) :
    (Closure.leftover f).all d.allowsEntry = true := by
  cases f with
  | none => rfl
  | some f =>
      simp only [Option.toList_some, List.all_cons, allowsClosure, Bool.and_eq_true] at h
      exact h.1.1

theorem allowsAll_ite {c : Prop} [Decidable c] {yes no : List Op} (hyes : d.allowsAll yes = true)
    (hno : d.allowsAll no = true) : d.allowsAll (if c then yes else no) = true := by
  split
  · exact hyes
  · exact hno

theorem allowsEntry_exchange {name : SlotName} {h old : Handle} {es es' : List Entry}
    (hx : exchangeEntry name h es = some (old, es')) :
    es'.all d.allowsEntry = es.all d.allowsEntry := by
  induction es generalizing es' with
  | nil => simp [exchangeEntry] at hx
  | cons e rest ih =>
      cases e with
      | slot n k =>
          by_cases hn : n = name
          · simp only [exchangeEntry, hn, if_true, Option.some.injEq, Prod.mk.injEq] at hx
            rcases hx with ⟨-, rfl⟩
            simp [allowsEntry]
          · simp only [exchangeEntry, hn, if_false, Option.map_eq_some_iff] at hx
            rcases hx with ⟨⟨o, r⟩, hr, heq⟩
            simp only [Prod.mk.injEq] at heq
            rcases heq with ⟨rfl, rfl⟩
            simp [ih hr]
      | guard label onDrop =>
          simp only [exchangeEntry, Option.map_eq_some_iff] at hx
          rcases hx with ⟨⟨o, r⟩, hr, heq⟩
          simp only [Prod.mk.injEq] at heq
          rcases heq with ⟨rfl, rfl⟩
          simp [ih hr]

theorem allowsBlock_exchange {name : SlotName} {h old : Handle} {bs bs' : List Block}
    (hx : exchangeBlock name h bs = some (old, bs')) :
    bs'.all d.allowsBlock = bs.all d.allowsBlock := by
  induction bs generalizing bs' with
  | nil => simp [exchangeBlock] at hx
  | cons b outer ih =>
      cases he : exchangeEntry name h b.entries with
      | some found =>
          rcases found with ⟨o, entries⟩
          simp only [exchangeBlock, he, Option.some.injEq, Prod.mk.injEq] at hx
          rcases hx with ⟨-, rfl⟩
          simp [allowsBlock, allowsEntry_exchange he]
      | none =>
          simp only [exchangeBlock, he, Option.map_eq_some_iff] at hx
          rcases hx with ⟨⟨o, r⟩, hr, heq⟩
          simp only [Prod.mk.injEq] at heq
          rcases heq with ⟨rfl, rfl⟩
          simp [ih hr]

end Discipline

end Fibers
