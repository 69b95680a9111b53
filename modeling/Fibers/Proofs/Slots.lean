import Fibers.Proofs.Panic.Raise

/-!
# What slots read as

A slot is read where an exchange would find it.  Taking and putting obey the laws of a store: what
was put is read there, and nothing changes elsewhere.
-/

namespace Fibers

/-! ## Exchanges -/

def Entry.at? (name : SlotName) : Entry -> Option Handle
  | slot n h => if n = name then some h else none
  | guard _ _ => none

/-- The handle of the first entry of a name. -/
def foundIn (name : SlotName) (es : List Entry) : Option Handle := es.findSome? (Entry.at? name)

section Exchange

variable {name : SlotName} {h old : Handle}

theorem foundIn_exchangeEntry {es es' : List Entry}
    (hx : exchangeEntry name h es = some (old, es')) :
    foundIn name es = some old ∧
      forall other, foundIn other es' = if other = name then some h else foundIn other es := by
  induction es generalizing es' with
  | nil => cases hx
  | cons e rest ih =>
      cases e with
      | slot n k =>
          by_cases hn : n = name
          · simp only [exchangeEntry, hn, if_true, Option.some.injEq, Prod.mk.injEq] at hx
            rcases hx with ⟨rfl, rfl⟩
            constructor
            · simp [foundIn, Entry.at?, hn]
            · intro other
              by_cases hother : name = other
              · simp [foundIn, Entry.at?, hother]
              · simp [foundIn, Entry.at?, hn, hother, Ne.symm hother]
          · simp only [exchangeEntry, hn, if_false, Option.map_eq_some_iff] at hx
            rcases hx with ⟨⟨o, r⟩, hr, heq⟩
            cases heq
            rcases ih hr with ⟨hfound, hothers⟩
            constructor
            · simpa [foundIn, Entry.at?, hn] using hfound
            · intro other
              have hrest := hothers other
              by_cases hother : n = other
              · simp [foundIn, Entry.at?, hother, show other ≠ name from hother ▸ hn]
              · simpa [foundIn, Entry.at?, hother] using hrest
      | guard label onDrop =>
          simp only [exchangeEntry, Option.map_eq_some_iff] at hx
          rcases hx with ⟨⟨o, r⟩, hr, heq⟩
          cases heq
          rcases ih hr with ⟨hfound, hothers⟩
          exact ⟨hfound, hothers⟩

theorem foundIn_of_none {es : List Entry} (hx : exchangeEntry name h es = none) :
    foundIn name es = none := by
  induction es with
  | nil => rfl
  | cons e rest ih =>
      cases e with
      | slot n k =>
          by_cases hn : n = name
          · simp [exchangeEntry, hn] at hx
          · simp only [exchangeEntry, hn, if_false, Option.map_eq_none_iff] at hx
            simpa [foundIn, Entry.at?, hn] using ih hx
      | guard label onDrop =>
          simp only [exchangeEntry, Option.map_eq_none_iff] at hx
          exact ih hx

theorem foundIn_append (es fs : List Entry) :
    foundIn name (es ++ fs) = (foundIn name es).or (foundIn name fs) := List.findSome?_append

theorem foundIn_exchangeBlock {bs bs' : List Block}
    (hx : exchangeBlock name h bs = some (old, bs')) :
    foundIn name (bs.flatMap Block.entries) = some old ∧
      forall other, foundIn other (bs'.flatMap Block.entries) =
        if other = name then some h else foundIn other (bs.flatMap Block.entries) := by
  induction bs generalizing bs' with
  | nil => cases hx
  | cons b outer ih =>
      cases he : exchangeEntry name h b.entries with
      | some found =>
          simp only [exchangeBlock, he, Option.some.injEq, Prod.mk.injEq] at hx
          rcases hx with ⟨rfl, rfl⟩
          rcases foundIn_exchangeEntry he with ⟨hfound, hothers⟩
          simp only [List.flatMap_cons, foundIn_append, hfound, hothers, Option.some_or, true_and]
          intro other
          split <;> rfl
      | none =>
          simp only [exchangeBlock, he, Option.map_eq_some_iff] at hx
          rcases hx with ⟨⟨o, r⟩, hr, heq⟩
          cases heq
          rcases ih hr with ⟨hfound, hothers⟩
          have hnone := foundIn_of_none he
          simp only [List.flatMap_cons, foundIn_append, hnone, hfound, hothers, Option.none_or,
            true_and]
          intro other
          split
          · rename_i hother
            rw [hother, hnone, Option.none_or]
          · rfl

theorem foundIn_of_exchangeBlock_none {bs : List Block} (hx : exchangeBlock name h bs = none) :
    foundIn name (bs.flatMap Block.entries) = none := by
  induction bs with
  | nil => rfl
  | cons b outer ih =>
      cases he : exchangeEntry name h b.entries with
      | some found => simp [exchangeBlock, he] at hx
      | none =>
          simp only [exchangeBlock, he, Option.map_eq_none_iff] at hx
          rw [List.flatMap_cons, foundIn_append, foundIn_of_none he, ih hx, Option.none_or]

theorem lookup_exchangeShared {name : String} {gs gs' : List (String × Handle)}
    (hx : exchangeShared name h gs = some (old, gs')) :
    gs.lookup name = some old ∧
      forall other, gs'.lookup other = if other = name then some h else gs.lookup other := by
  induction gs generalizing gs' with
  | nil => cases hx
  | cons g rest ih =>
      rcases g with ⟨n, k⟩
      by_cases hn : n = name
      · simp only [exchangeShared, hn, if_true, Option.some.injEq, Prod.mk.injEq] at hx
        rcases hx with ⟨rfl, rfl⟩
        subst hn
        simp only [List.lookup_cons, beq_self_eq_true, true_and]
        intro other
        by_cases hother : other = n
        · simp [hother]
        · have hne : (other == n) = false := by simpa using hother
          simp [hother, hne]
      · simp only [exchangeShared, hn, if_false, Option.map_eq_some_iff] at hx
        rcases hx with ⟨⟨o, r⟩, hr, heq⟩
        cases heq
        rcases ih hr with ⟨hfound, hothers⟩
        constructor
        · have hne : (name == n) = false := by simpa using Ne.symm hn
          simpa only [List.lookup_cons, hne] using hfound
        · intro other
          by_cases hother : other = n
          · subst hother
            simp [hn]
          · have hne : (other == n) = false := by simpa using hother
            simpa only [List.lookup_cons, hne] using hothers other

theorem lookup_of_exchangeShared_none {name : String} {gs : List (String × Handle)}
    (hx : exchangeShared name h gs = none) : gs.lookup name = none := by
  induction gs with
  | nil => rfl
  | cons g rest ih =>
      rcases g with ⟨n, k⟩
      by_cases hn : n = name
      · simp [exchangeShared, hn] at hx
      · simp only [exchangeShared, hn, if_false, Option.map_eq_none_iff] at hx
        have hne : (name == n) = false := by simpa using Ne.symm hn
        simpa only [List.lookup_cons, hne] using ih hx

end Exchange

namespace Scene

variable {s : Scene}

/-- The handle in a slot; a slot that is declared nowhere reads as empty. -/
def handleAt (s : Scene) : SlotName -> Handle
  | .own name => (foundIn (.own name) (s.code.blocks.flatMap Block.entries)).getD .empty
  | .shared name => (s.world.globals.lookup name).getD .empty

/-- What is read hangs on the globals and on the code, and on nothing else. -/
theorem handleAt_congr {w w' : World} {a : Activation} {slot : SlotName}
    (h : w.globals = w'.globals) : (Scene.mk w a).handleAt slot = (Scene.mk w' a).handleAt slot := by
  cases slot with
  | own name => rfl
  | shared name => simp only [handleAt, h]

theorem fst_take (slot : SlotName) : (s.take slot).1 = s.handleAt slot := by
  cases slot with
  | own name =>
      cases hx : exchangeBlock (.own name) .empty s.code.blocks with
      | some found =>
          simp [take, Activation.take, hx, handleAt, (foundIn_exchangeBlock hx).1]
      | none => simp [take, Activation.take, hx, handleAt, foundIn_of_exchangeBlock_none hx]
  | shared name =>
      cases hx : exchangeShared name .empty s.world.globals with
      | some found => simp [take, World.take, hx, handleAt, (lookup_exchangeShared hx).1]
      | none => simp [take, World.take, hx, handleAt, lookup_of_exchangeShared_none hx]

theorem handleAt_take (slot other : SlotName) :
    (s.take slot).2.handleAt other = if other = slot then .empty else s.handleAt other := by
  cases slot with
  | own name =>
      cases other with
      | shared n => rfl
      | own n =>
          cases hx : exchangeBlock (.own name) .empty s.code.blocks with
          | some found =>
              have hothers := (foundIn_exchangeBlock hx).2 (.own n)
              simp only [take, Activation.take, hx, handleAt, hothers]
              split <;> rfl
          | none =>
              have hnone := foundIn_of_exchangeBlock_none hx
              simp only [take, Activation.take, hx, handleAt]
              split
              · rename_i hn
                rw [hn, hnone]
                rfl
              · rfl
  | shared name =>
      cases other with
      | own n => rfl
      | shared n =>
          cases hx : exchangeShared name .empty s.world.globals with
          | some found =>
              have hothers := (lookup_exchangeShared hx).2 n
              simp only [take, World.take, hx, handleAt, hothers, SlotName.shared.injEq]
              split <;> rfl
          | none =>
              have hnone := lookup_of_exchangeShared_none hx
              simp only [take, World.take, hx, handleAt, SlotName.shared.injEq]
              split
              · rename_i hn
                rw [hn, hnone]
                rfl
              · rfl

/-- Putting a handle gives what is read, as long as there is a block to declare a slot in. -/
theorem fst_put (hblocks : s.code.blocks ≠ []) (slot : SlotName) (h : Handle) :
    (s.put slot h).1 = s.handleAt slot := by
  cases slot with
  | own name =>
      cases hx : exchangeBlock (.own name) h s.code.blocks with
      | some found => simp [put, Activation.put, hx, handleAt, (foundIn_exchangeBlock hx).1]
      | none =>
          rcases List.exists_cons_of_ne_nil hblocks with ⟨b, outer, hlist⟩
          have hnone := foundIn_of_exchangeBlock_none hx
          rw [hlist] at hx hnone
          simp only [put, Activation.put, handleAt, hlist, hx, hnone, declareEntry]
          rfl
  | shared name =>
      cases hx : exchangeShared name h s.world.globals with
      | some found => simp [put, World.put, hx, handleAt, (lookup_exchangeShared hx).1]
      | none => simp [put, World.put, hx, handleAt, lookup_of_exchangeShared_none hx]

theorem handleAt_put (hblocks : s.code.blocks ≠ []) (slot : SlotName) (h : Handle)
    (other : SlotName) :
    (s.put slot h).2.handleAt other = if other = slot then h else s.handleAt other := by
  cases slot with
  | own name =>
      cases other with
      | shared n => rfl
      | own n =>
          cases hx : exchangeBlock (.own name) h s.code.blocks with
          | some found =>
              have hothers := (foundIn_exchangeBlock hx).2 (.own n)
              simp only [put, Activation.put, hx, handleAt, hothers]
              split <;> rfl
          | none =>
              rcases List.exists_cons_of_ne_nil hblocks with ⟨b, outer, hlist⟩
              rw [hlist] at hx
              simp only [put, Activation.put, handleAt, hlist, hx, declareEntry]
              by_cases hn : name = n
              · simp [foundIn, Entry.at?, hn]
              · simp [foundIn, Entry.at?, hn, Ne.symm hn]
  | shared name =>
      cases other with
      | own n => rfl
      | shared n =>
          cases hx : exchangeShared name h s.world.globals with
          | some found =>
              have hothers := (lookup_exchangeShared hx).2 n
              simp only [put, World.put, hx, handleAt, hothers, SlotName.shared.injEq]
              split <;> rfl
          | none =>
              by_cases hn : n = name
              · simp [put, World.put, hx, handleAt, hn]
              · have hne : (n == name) = false := by simpa using hn
                simp [put, World.put, hx, handleAt, hn, List.lookup_cons, hne]

/-- Only the globals of the world change when a handle is put. -/
theorem world_put (slot : SlotName) (h : Handle) :
    (s.put slot h).2.world = { s.world with globals := (s.put slot h).2.world.globals } := by
  cases slot with
  | own name => rfl
  | shared name =>
      cases hx : exchangeShared name h s.world.globals <;> simp [put, World.put, hx]

theorem blocks_put (hblocks : s.code.blocks ≠ []) (slot : SlotName) (h : Handle) :
    (s.put slot h).2.code.blocks ≠ [] := by
  cases slot with
  | shared name => exact hblocks
  | own name =>
      rcases List.exists_cons_of_ne_nil hblocks with ⟨b, outer, hlist⟩
      cases hx : exchangeBlock (.own name) h s.code.blocks with
      | some found =>
          have hkinds := exchangeBlock_kinds hx
          rw [hlist] at hkinds
          intro hnil
          simp only [put, Activation.put, hx] at hnil
          simp [hnil] at hkinds
      | none =>
          rw [hlist] at hx
          simp [put, Activation.put, hlist, hx, declareEntry]

theorem handleAt_takeAll (slots : List SlotName) (other : SlotName) :
    (s.takeAll slots).2.handleAt other = if other ∈ slots then .empty else s.handleAt other := by
  induction slots generalizing s with
  | nil => simp [takeAll]
  | cons slot rest ih =>
      simp only [takeAll, ih, handleAt_take, List.mem_cons]
      grind

/-- Different slots are taken each with what it reads as, and are empty afterwards. -/
theorem takeAll_of_nodup {slots : List SlotName} (hslots : slots.Nodup) :
    (s.takeAll slots).1 = slots.map (fun slot => (slot, s.handleAt slot)) ∧
      forall other, (s.takeAll slots).2.handleAt other =
        if other ∈ slots then .empty else s.handleAt other := by
  refine ⟨?_, handleAt_takeAll slots⟩
  induction slots generalizing s with
  | nil => rfl
  | cons slot rest ih =>
      rcases List.nodup_cons.mp hslots with ⟨hfirst, hrest⟩
      have hsame : rest.map (fun other => (other, (s.take slot).2.handleAt other)) =
          rest.map fun other => (other, s.handleAt other) := by
        apply List.map_congr_left
        intro other hother
        have hne : other ≠ slot := fun heq => hfirst (heq ▸ hother)
        rw [handleAt_take, if_neg hne]
      simp only [takeAll, List.map_cons, ih hrest, hsame, fst_take]

theorem handleAt_advance (w : World) (a : Activation) (slot : SlotName) :
    (Scene.mk w a.advance).handleAt slot = (Scene.mk w a).handleAt slot := by
  cases slot with
  | shared name => rfl
  | own name =>
      simp only [handleAt, Activation.advance]
      split
      · rename_i b outer hblocks
        simp [hblocks]
      · rfl

end Scene

end Fibers
