import Fibers.Proofs.Panic.Drain
import Fibers.Proofs.Refusal.Check

/-!
# Panics that are raised

Running code panics because it is told to, or because a handle that it needs is not there.  The unwind
starts in the code as it is nested by then.  No handle is lost that the code has had: each is where it
was, or among what was captured for the call that has failed.
-/

namespace Fibers

open Relation (ReflTransGen)

/-! ## What is left of code whose slots are emptied -/

/-- How running code goes on, and how it is nested. -/
def Activation.outline (a : Activation) : Flow × List BlockKind := (a.flow, a.blocks.map Block.kind)

theorem exchangeBlock_kinds {name : SlotName} {h old : Handle} {bs bs' : List Block}
    (hx : exchangeBlock name h bs = some (old, bs')) : bs'.map Block.kind = bs.map Block.kind := by
  induction bs generalizing bs' with
  | nil => cases hx
  | cons b outer ih =>
      cases he : exchangeEntry name h b.entries with
      | some found =>
          simp only [exchangeBlock, he, Option.some.injEq, Prod.mk.injEq] at hx
          rcases hx with ⟨-, rfl⟩
          rfl
      | none =>
          simp only [exchangeBlock, he, Option.map_eq_some_iff] at hx
          rcases hx with ⟨⟨o, r⟩, hr, heq⟩
          cases heq
          rw [List.map_cons, List.map_cons, ih hr]

theorem Activation.outline_advance (a : Activation) : a.advance.outline = a.outline := by
  unfold advance
  split
  · rename_i b outer hblocks
    simp [outline, hblocks]
  · rfl

theorem Activation.holdings_advance (a : Activation) : a.advance.holdings = a.holdings := by
  unfold advance
  split
  · rename_i b outer hblocks
    simp [holdings, hblocks, Block.holdings]
  · rfl

namespace Scene

variable {s : Scene} {x : Holding}

theorem outline_take (slot : SlotName) : (s.take slot).2.code.outline = s.code.outline := by
  cases slot with
  | shared name => rfl
  | own name =>
      cases hx : exchangeBlock (.own name) .empty s.code.blocks with
      | none => simp [take, Activation.take, hx]
      | some found => simp [take, Activation.take, hx, Activation.outline, exchangeBlock_kinds hx]

theorem outline_takeAll (slots : List SlotName) :
    (s.takeAll slots).2.code.outline = s.code.outline := by
  induction slots generalizing s with
  | nil => rfl
  | cons slot rest ih =>
      simp only [takeAll]
      rw [ih, outline_take]

theorem outline_make (f : Option FunctionSpec) : (s.make f).2.code.outline = s.code.outline := by
  cases f with
  | none => rfl
  | some f => exact outline_takeAll f.moves

theorem held_take (slot : SlotName) (h : x ∈ s.code.holdings) :
    x ∈ (s.take slot).1.holdings ∨ x ∈ (s.take slot).2.code.holdings := by
  cases slot with
  | shared name => exact Or.inr h
  | own name =>
      have htaken := s.code.take_count (x := x) (.own name)
      rw [<- List.count_pos_iff] at h
      simp only [take, <- List.count_pos_iff]
      omega

theorem held_takeAll (slots : List SlotName) (h : x ∈ s.code.holdings) :
    x ∈ (s.takeAll slots).1.flatMap (fun entry => entry.2.holdings) ∨
      x ∈ (s.takeAll slots).2.code.holdings := by
  induction slots generalizing s with
  | nil => exact Or.inr h
  | cons slot rest ih =>
      simp only [takeAll, List.flatMap_cons, List.mem_append, or_assoc]
      exact (held_take slot h).imp_right ih

/-- What code has in its slots is still there, or captured, when a function has been made. -/
theorem held_make (f : Option FunctionSpec) (h : x ∈ s.code.holdings) :
    x ∈ entryHoldings (Closure.leftover (s.make f).1) ∨ x ∈ (s.make f).2.code.holdings := by
  cases f with
  | none => exact Or.inr h
  | some f =>
      refine Or.imp_left (fun hmoved => ?_) (held_takeAll f.moves h)
      rw [<- List.count_pos_iff] at hmoved ⊢
      simp only [make, capture, Closure.leftover, entryHoldings_reverse, entryHoldings_append,
        entryHoldings_slots, List.count_append]
      exact Nat.lt_of_lt_of_le hmoved (Nat.le_add_left _ _)

end Scene

namespace State

variable {s s' : State} {payload : Payload} {a : Activation} {below : List Frame}

/-! ## The next operation panics -/

/--
The next operation panics: that is what it is there for, or it needs a handle and its slot is empty.
The slot of a switch is looked at when the function that goes along has been made.
-/
inductive Panics (s : State) : Payload -> Prop where
  | raised {payload : Payload} : s.operation? = some (.panic payload) -> Panics s payload
  | resumed {switch : SwitchSpec} {f : Option FunctionSpec} {a : Activation} {below : List Frame} :
      s.stack = .code a :: below -> s.operation? = some (switch.operation f) ->
        (((Scene.mk s.world a.advance).make f).2.take switch.slot).1 = .empty ->
        Panics s (emptyHandlePanic (if switch.checked then "probe" else "resume"))
  | asked {question : Question} {slot : SlotName} :
      s.operation? = some (.ask question slot) -> s.handleIn slot = .empty ->
        Panics s (emptyHandlePanic "probe")

/--
An unwind has been raised in running code, which goes on as it was nested before.  What the code had
is still there, or among what was captured for the failing call and goes first.
-/
structure Raises (s : State) (payload : Payload) (a : Activation) (below : List Frame)
    (captured : List Entry) (a' : Activation) (r : State) : Prop where
  step : s.step = .active r
  running : r.running = s.running
  contexts : r.contexts = s.contexts
  control : r.control = .run
  stack : r.stack = .discarding captured (some (.panic payload)) :: .code a' :: below
  outline : a'.outline = a.outline
  held : forall x, x ∈ a.holdings -> x ∈ entryHoldings captured ∨ x ∈ a'.holdings

theorem Raises.of_panic {scene : Scene} {captured : List Entry}
    (hstep : s.step = s.panic scene below payload captured) (houtline : scene.code.outline = a.outline)
    (hheld : forall x, x ∈ a.holdings -> x ∈ entryHoldings captured ∨ x ∈ scene.code.holdings) :
    exists r, s.Raises payload a below captured scene.code r :=
  ⟨_, hstep, rfl, rfl, rfl, rfl, houtline, hheld⟩

theorem Panics.raises (h : s.Panics payload) (hstack : s.stack = .code a :: below) :
    exists captured a' r, s.Raises payload a below captured a' r := by
  have hadvanced : forall x, x ∈ a.holdings -> x ∈ (Scene.mk s.world a.advance).code.holdings :=
    fun x hx => by rwa [a.holdings_advance]
  cases h with
  | raised hop =>
      have hstep := step_of_operation hstack hop
      exact ⟨[], _, Raises.of_panic hstep a.outline_advance fun x hx => Or.inr (hadvanced x hx)⟩
  | resumed hstack' hop hempty =>
      rename_i switch f a' below'
      cases hstack.symm.trans hstack'
      have houtline := ((Scene.mk s.world a.advance).make f).2.outline_take switch.slot
      have hheld := fun x hx => Scene.held_make (x := x) f (hadvanced x hx)
      have hleft := fun x hx =>
        Scene.held_take (x := x) (s := ((Scene.mk s.world a.advance).make f).2) switch.slot hx
      have hstep := step_of_operation hstack hop
      rw [execute_operation, resume] at hstep
      rw [Scene.outline_make] at houtline
      generalize ((Scene.mk s.world a.advance).make f).2.take switch.slot = taken at *
      rcases taken with ⟨h, scene⟩
      dsimp only at hempty
      subst hempty
      have hkept : forall x, x ∈ a.holdings ->
          x ∈ entryHoldings (Closure.leftover ((Scene.mk s.world a.advance).make f).1) ∨
            x ∈ scene.code.holdings :=
        fun x hx => (hheld x hx).imp_right fun hx => (hleft x hx).resolve_left List.not_mem_nil
      refine ⟨_, _, Raises.of_panic ?_ (houtline.trans a.outline_advance) hkept⟩
      rw [hstep]
      cases switch.checked <;> rfl
  | asked hop hempty =>
      rename_i question slot
      have houtline := (Scene.mk s.world a.advance).outline_take slot
      have hleft := fun x hx =>
        Scene.held_take (x := x) (s := Scene.mk s.world a.advance) slot (hadvanced x hx)
      have hstep := step_of_operation hstack hop
      simp only [handleIn, hstack] at hempty
      simp only [execute, ask] at hstep
      generalize (Scene.mk s.world a.advance).take slot = taken at *
      rcases taken with ⟨h, scene⟩
      dsimp only at hempty
      subst hempty
      exact ⟨[], _, Raises.of_panic hstep (houtline.trans a.outline_advance) fun x hx =>
        Or.inr ((hleft x hx).resolve_left List.not_mem_nil)⟩

theorem Panics.operates (h : s.Panics payload) : exists op, s.operation? = some op := by
  cases h with
  | raised hop | resumed _ hop | asked hop => exact ⟨_, hop⟩

/-- Code that panics was going on, so it has no result that it would give back. -/
theorem Panics.onward (h : s.Panics payload) (hstack : s.stack = .code a :: below) :
    a.flow = .onward := by
  rcases h.operates with ⟨op, hop⟩
  rcases operation?_eq_some hop with ⟨a', below', b, outer, rest, -, hstack', hflow, -⟩
  cases hstack.symm.trans hstack'
  exact hflow

theorem Raises.flow {captured : List Entry} {a' : Activation} {r : State}
    (h : s.Raises payload a below captured a' r) : a'.flow = a.flow :=
  congrArg Prod.fst h.outline

/-- What catches the unwind was open when it was raised. -/
theorem Raises.kind_mem {captured : List Entry} {a' : Activation} {r : State} {b : Block}
    (h : s.Raises payload a below captured a' r) (hb : b ∈ a'.blocks) :
    exists b', b' ∈ a.blocks ∧ b'.kind = b.kind := by
  have hkinds : a'.blocks.map Block.kind = a.blocks.map Block.kind := congrArg Prod.snd h.outline
  exact List.mem_map.mp (hkinds ▸ List.mem_map_of_mem hb)

end State

end Fibers
