import Fibers.Machine.State

/-!
# Slots

A handle is never copied: it is taken out of a slot, which leaves an empty one behind, or put into a
slot in exchange for the one that was there.  All access goes through one exchange, so that no
handle is lost or doubled.

A name of the code's own means the latest entry of this name in the innermost block that has one.  A
name that is declared nowhere reads as empty, and is declared in the innermost block when a handle
is put there.
-/

namespace Fibers

/-! ## Slots of running code -/

/-- Puts a handle into the first slot of this name, and gives what was there. -/
def exchangeEntry (name : SlotName) (h : Handle) : List Entry -> Option (Handle × List Entry)
  | [] => none
  | .slot n old :: rest =>
      if n = name then some (old, .slot n h :: rest)
      else (exchangeEntry name h rest).map fun (old', rest') => (old', .slot n old :: rest')
  | .guard label onDrop :: rest =>
      (exchangeEntry name h rest).map fun (old, rest') => (old, .guard label onDrop :: rest')

/-- An exchange is undone by putting back what was given. -/
theorem exchangeEntry_undo {name : SlotName} {h old : Handle} {es es' : List Entry}
    (hx : exchangeEntry name h es = some (old, es')) :
    exchangeEntry name old es' = some (h, es) := by
  induction es generalizing es' with
  | nil => simp [exchangeEntry] at hx
  | cons e rest ih =>
      cases e with
      | slot n k =>
          by_cases hn : n = name
          · simp only [exchangeEntry, hn, if_true, Option.some.injEq, Prod.mk.injEq] at hx
            obtain ⟨rfl, rfl⟩ := hx
            simp [exchangeEntry, hn]
          · simp only [exchangeEntry, hn, if_false, Option.map_eq_some_iff] at hx
            obtain ⟨⟨o, r⟩, hr, heq⟩ := hx
            cases heq
            simp [exchangeEntry, hn, ih hr]
      | guard label onDrop =>
          simp only [exchangeEntry, Option.map_eq_some_iff] at hx
          obtain ⟨⟨o, r⟩, hr, heq⟩ := hx
          cases heq
          simp [exchangeEntry, ih hr]

/-- Exchanges the handle of a slot in the innermost block that declares it. -/
def exchangeBlock (name : SlotName) (h : Handle) : List Block -> Option (Handle × List Block)
  | [] => none
  | b :: outer =>
      match exchangeEntry name h b.entries with
      | some (old, entries) => some (old, { b with entries := entries } :: outer)
      | none => (exchangeBlock name h outer).map fun (old, outer') => (old, b :: outer')

/-- Whether a slot is declared does not hang on what is put there. -/
theorem exchangeEntry_eq_none {name : SlotName} {h : Handle} (k : Handle) {es : List Entry}
    (hx : exchangeEntry name h es = none) : exchangeEntry name k es = none := by
  induction es with
  | nil => rfl
  | cons e rest ih =>
      cases e with
      | slot n old =>
          by_cases hn : n = name
          · simp [exchangeEntry, hn] at hx
          · simp only [exchangeEntry, hn, if_false, Option.map_eq_none_iff] at hx ⊢
            exact ih hx
      | guard label onDrop =>
          simp only [exchangeEntry, Option.map_eq_none_iff] at hx ⊢
          exact ih hx

theorem exchangeBlock_undo {name : SlotName} {h old : Handle} {bs bs' : List Block}
    (hx : exchangeBlock name h bs = some (old, bs')) :
    exchangeBlock name old bs' = some (h, bs) := by
  induction bs generalizing bs' with
  | nil => simp [exchangeBlock] at hx
  | cons b outer ih =>
      cases he : exchangeEntry name h b.entries with
      | some found =>
          obtain ⟨o, entries⟩ := found
          simp only [exchangeBlock, he, Option.some.injEq, Prod.mk.injEq] at hx
          obtain ⟨rfl, rfl⟩ := hx
          simp [exchangeBlock, exchangeEntry_undo he]
      | none =>
          simp only [exchangeBlock, he, Option.map_eq_some_iff] at hx
          obtain ⟨⟨o, r⟩, hr, heq⟩ := hx
          cases heq
          simp [exchangeBlock, exchangeEntry_eq_none _ he, ih hr]

/-- Declares an entry in the innermost block.  Where no block is open there is no place for it. -/
def declareEntry (e : Entry) : List Block -> Option (List Block)
  | [] => none
  | b :: outer => some ({ b with entries := e :: b.entries } :: outer)

namespace Activation

def take (a : Activation) (name : SlotName) : Handle × Activation :=
  match exchangeBlock name .empty a.blocks with
  | some (h, blocks) => (h, { a with blocks := blocks })
  | none => (.empty, a)

def put (a : Activation) (name : SlotName) (h : Handle) : Handle × Activation :=
  match exchangeBlock name h a.blocks with
  | some (old, blocks) => (old, { a with blocks := blocks })
  | none =>
      match declareEntry (.slot name h) a.blocks with
      | some blocks => (.empty, { a with blocks := blocks })
      | none => (h, a)

end Activation

/-! ## Shared slots -/

/-- Puts a handle into a shared slot that is declared, and gives what was there. -/
def exchangeShared (name : String) (h : Handle) :
    List (String × Handle) -> Option (Handle × List (String × Handle))
  | [] => none
  | (n, old) :: rest =>
      if n = name then some (old, (n, h) :: rest)
      else (exchangeShared name h rest).map fun (old', rest') => (old', (n, old) :: rest')

theorem exchangeShared_undo {name : String} {h old : Handle} {gs gs' : List (String × Handle)}
    (hx : exchangeShared name h gs = some (old, gs')) :
    exchangeShared name old gs' = some (h, gs) := by
  induction gs generalizing gs' with
  | nil => simp [exchangeShared] at hx
  | cons g rest ih =>
      obtain ⟨n, k⟩ := g
      by_cases hn : n = name
      · simp only [exchangeShared, hn, if_true, Option.some.injEq, Prod.mk.injEq] at hx
        obtain ⟨rfl, rfl⟩ := hx
        simp [exchangeShared, hn]
      · simp only [exchangeShared, hn, if_false, Option.map_eq_some_iff] at hx
        obtain ⟨⟨o, r⟩, hr, heq⟩ := hx
        cases heq
        simp [exchangeShared, hn, ih hr]

namespace World

def take (w : World) (name : String) : Handle × World :=
  match exchangeShared name .empty w.globals with
  | some (h, globals) => (h, { w with globals := globals })
  | none => (.empty, w)

def put (w : World) (name : String) (h : Handle) : Handle × World :=
  match exchangeShared name h w.globals with
  | some (old, globals) => (old, { w with globals := globals })
  | none => (.empty, { w with globals := (name, h) :: w.globals })

/-- The names of all shared slots in rising order. -/
def globalNames (w : World) : List String :=
  (w.globals.map Prod.fst).mergeSort (fun a b => decide (a ≤ b))

end World

/-! ## Any slot

Running code and the world belong together here: a name is looked up in one or the other.
-/

/-- Running code and what it shares with others. -/
structure Scene where
  world : World
  code : Activation

namespace Scene

def take (s : Scene) : SlotName -> Handle × Scene
  | .shared name =>
      let (h, world) := s.world.take name
      (h, { s with world := world })
  | .own name =>
      let (h, code) := s.code.take (.own name)
      (h, { s with code := code })

/-- Puts a handle into a slot, and gives the one that it replaces. -/
def put (s : Scene) (slot : SlotName) (h : Handle) : Handle × Scene :=
  match slot with
  | .shared name =>
      let (old, world) := s.world.put name h
      (old, { s with world := world })
  | .own name =>
      let (old, code) := s.code.put (.own name) h
      (old, { s with code := code })

/-- Takes the handles out of some slots, one after another, each with the name of its slot. -/
def takeAll (s : Scene) : List SlotName -> List (SlotName × Handle) × Scene
  | [] => ([], s)
  | name :: rest =>
      let (h, s) := s.take name
      let (others, s) := s.takeAll rest
      ((name, h) :: others, s)

/--
Looks at a slot: its handle is taken, seen to be live or not, and put back, which declares the slot.
-/
def look (s : Scene) (name : SlotName) : Handle × Scene :=
  let (h, s) := s.take name
  let (_, s) := s.put name h
  (h, s)

/-- What is looked at goes back into an empty slot. -/
theorem put_take (s : Scene) (name : SlotName) :
    ((s.take name).2.put name (s.take name).1).1 = .empty := by
  cases name with
  | own n =>
      cases hx : exchangeBlock (.own n) .empty s.code.blocks with
      | some found =>
          simp [Scene.take, Scene.put, Activation.take, Activation.put, hx, exchangeBlock_undo hx]
      | none =>
          cases hd : declareEntry (.slot (.own n) .empty) s.code.blocks <;>
            simp [Scene.take, Scene.put, Activation.take, Activation.put, hx, hd]
  | shared n =>
      cases hx : exchangeShared n .empty s.world.globals with
      | some found =>
          simp [Scene.take, Scene.put, World.take, World.put, hx, exchangeShared_undo hx]
      | none => simp [Scene.take, Scene.put, World.take, World.put, hx]

def note (s : Scene) (n : Note) : Scene := { s with world := s.world.note s.code.label n }

/-- Adds an entry to the innermost block. -/
def declare (s : Scene) (e : Entry) : Scene :=
  { s with code := { s.code with blocks := (declareEntry e s.code.blocks).getD s.code.blocks } }

/-- Opens a block within the running code. -/
def enter (s : Scene) (kind : BlockKind) (code : List Op) : Scene :=
  { s with code := { s.code with blocks := ⟨kind, code, []⟩ :: s.code.blocks } }

/-- Puts operations in front of what the innermost block has left to do. -/
def prepend (s : Scene) (ops : List Op) : Scene :=
  match s.code.blocks with
  | [] => s
  | b :: outer =>
      { s with code := { s.code with blocks := { b with code := ops ++ b.code } :: outer } }

/-- Lets the running code go on in another way. -/
def flow (s : Scene) (f : Flow) : Scene := { s with code := { s.code with flow := f } }

/--
Makes guards with the given labels, takes what the given slots hold, and closes some code over both.
-/
def capture (s : Scene) (label : String) (argument : SlotName) (captures : List String)
    (moves : List SlotName) (code : List Op) : Closure × Scene :=
  let s := { s with world := { s.world with liveGuards := s.world.liveGuards + captures.length } }
  let (moved, s) := s.takeAll moves
  let entries := captures.map (Entry.guard · []) ++ moved.map fun (name, h) => Entry.slot name h
  (⟨label, entries.reverse, argument, code⟩, s)

end Scene

end Fibers
