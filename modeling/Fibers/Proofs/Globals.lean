import Fibers.Proofs.Layout

/-!
# Shared slots and how they are drained

Each shared slot is listed once.  At the end of a run the slots are gone through by name, and as
long as a round has found nothing, the slots that it has passed are empty.
-/

namespace Fibers

/-! ## Names of shared slots -/

def World.NamesOnce (w : World) : Prop := (w.globals.map Prod.fst).Nodup

section Exchange

variable {name : String} {h old k : Handle} {gs gs' : List (String × Handle)}

theorem exchangeShared_names (hx : exchangeShared name h gs = some (old, gs')) :
    gs'.map Prod.fst = gs.map Prod.fst := by
  induction gs generalizing gs' with
  | nil => cases hx
  | cons g rest ih =>
      rcases g with ⟨n, there⟩
      by_cases hn : n = name
      · simp only [exchangeShared, hn, if_true, Option.some.injEq, Prod.mk.injEq] at hx
        rcases hx with ⟨rfl, rfl⟩
        simp [hn]
      · simp only [exchangeShared, hn, if_false, Option.map_eq_some_iff] at hx
        rcases hx with ⟨⟨o, r⟩, hr, heq⟩
        cases heq
        simp [ih hr]

theorem not_mem_names_of_exchangeShared (hx : exchangeShared name h gs = none) :
    name ∉ gs.map Prod.fst := by
  induction gs with
  | nil => simp
  | cons g rest ih =>
      rcases g with ⟨n, there⟩
      by_cases hn : n = name
      · simp [exchangeShared, hn] at hx
      · simp only [exchangeShared, hn, if_false, Option.map_eq_none_iff] at hx
        simp only [List.map_cons, List.mem_cons, not_or]
        exact ⟨Ne.symm hn, ih hx⟩

/-- What is given is what was there, and in an exchange of the same nothing changes. -/
theorem exchangeShared_old (honce : (gs.map Prod.fst).Nodup)
    (hx : exchangeShared name h gs = some (old, gs')) :
    (forall k, (name, k) ∈ gs -> k = old) ∧ (h = old -> gs' = gs) := by
  induction gs generalizing gs' with
  | nil => cases hx
  | cons g rest ih =>
      rcases g with ⟨n, there⟩
      rcases List.nodup_cons.mp honce with ⟨hfirst, hrest⟩
      by_cases hn : n = name
      · simp only [exchangeShared, hn, if_true, Option.some.injEq, Prod.mk.injEq] at hx
        rcases hx with ⟨rfl, rfl⟩
        constructor
        · intro k hk
          rcases List.mem_cons.mp hk with heq | hmem
          · cases heq
            rfl
          · exact absurd (List.mem_map.mpr ⟨_, hmem, hn.symm⟩) hfirst
        · intro heq
          rw [heq, hn]
      · simp only [exchangeShared, hn, if_false, Option.map_eq_some_iff] at hx
        rcases hx with ⟨⟨o, r⟩, hr, heq⟩
        cases heq
        rcases ih hrest hr with ⟨hold, hsame⟩
        constructor
        · intro k hk
          rcases List.mem_cons.mp hk with heq | hmem
          · cases heq
            exact absurd rfl hn
          · exact hold k hmem
        · intro heq
          rw [hsame heq]

end Exchange

namespace World

variable {w : World}

theorem NamesOnce.of_globals {w' : World} (honce : w.NamesOnce) (h : w'.globals = w.globals) :
    w'.NamesOnce := by
  rw [NamesOnce, h]
  exact honce

theorem NamesOnce.take (honce : w.NamesOnce) (name : String) : (w.take name).2.NamesOnce := by
  cases hx : exchangeShared name .empty w.globals with
  | none => simpa [World.take, hx] using honce
  | some found => simpa [World.take, hx, NamesOnce, exchangeShared_names hx] using honce

theorem NamesOnce.put (honce : w.NamesOnce) (name : String) (h : Handle) :
    (w.put name h).2.NamesOnce := by
  cases hx : exchangeShared name h w.globals with
  | some found => simpa [World.put, hx, NamesOnce, exchangeShared_names hx] using honce
  | none =>
      simp only [World.put, hx, NamesOnce, List.map_cons]
      exact List.nodup_cons.mpr ⟨not_mem_names_of_exchangeShared hx, honce⟩

theorem mem_globalNames {name : String} {h : Handle} (hmem : (name, h) ∈ w.globals) :
    name ∈ w.globalNames := by
  rw [globalNames, List.mem_mergeSort]
  exact List.mem_map.mpr ⟨_, hmem, rfl⟩

end World

theorem World.NamesOnce.takeSlot {s : Scene} (honce : s.world.NamesOnce) (slot : SlotName) :
    (s.take slot).2.world.NamesOnce := by
  cases slot with
  | own name => exact honce
  | shared name => exact honce.take name

theorem World.NamesOnce.putSlot {s : Scene} (honce : s.world.NamesOnce) (slot : SlotName)
    (h : Handle) : (s.put slot h).2.world.NamesOnce := by
  cases slot with
  | own name => exact honce
  | shared name => exact honce.put name h

/-! ## Rounds of draining -/

/-- As long as a round has found nothing, only slots that it has yet to pass can hold a handle. -/
def Tidy (w : World) (stack : List Frame) : Prop :=
  w.NamesOnce ∧
    match stack with
    | .root (.draining _ names false _) :: _ =>
        forall name h, (name, h) ∈ w.globals -> h ≠ .empty -> name ∈ names
    | _ => True

namespace Tidy

variable {w : World} {stack : List Frame} {entries : List Entry}

theorem of_globals {w' : World} (h : Tidy w stack) (hglobals : w'.globals = w.globals) :
    Tidy w' stack := by
  refine ⟨h.1.of_globals hglobals, ?_⟩
  rw [hglobals]
  exact h.2

theorem dropFirst (h : Tidy w stack) : Tidy w (Fibers.dropFirst entries stack) := by
  cases entries with
  | nil => exact h
  | cons e rest => exact ⟨h.1, trivial⟩

theorem of_inCode (honce : w.NamesOnce) (h : InCode stack) : Tidy w stack := by
  refine ⟨honce, ?_⟩
  split
  · exact False.elim h
  · trivial

theorem of_inDrop (honce : w.NamesOnce) (h : InDrop stack) : Tidy w stack := by
  refine ⟨honce, ?_⟩
  split
  · exact False.elim h
  · trivial

theorem of_carriesDrop (honce : w.NamesOnce) (h : CarriesDrop entries stack) : Tidy w stack := by
  refine ⟨honce, ?_⟩
  split
  · exact False.elim h
  · trivial

theorem of_needOf {need : Need} (honce : w.NamesOnce) (h : needOf stack = some need) :
    Tidy w stack := by
  refine ⟨honce, ?_⟩
  split
  · cases h
  · trivial

theorem pass {name : String} {names : List String} {rounds : Nat} {panic : Option Payload}
    {below : List Frame} {w' : World}
    (h : Tidy w (.root (.draining rounds (name :: names) false panic) :: below))
    (htake : w.take name = (.empty, w')) :
    Tidy w' (.root (.draining rounds names false panic) :: below) := by
  rcases h with ⟨honce, hnames⟩
  unfold World.take at htake
  split at htake
  · rename_i old globals hx
    cases htake
    rcases exchangeShared_old honce hx with ⟨hold, hsame⟩
    rw [hsame rfl]
    refine ⟨honce, ?_⟩
    intro n h hmem hlive
    rcases List.mem_cons.mp (hnames n h hmem hlive) with rfl | hrest
    · exact absurd (hold h hmem) hlive
    · exact hrest
  · rename_i hx
    cases htake
    refine ⟨honce, ?_⟩
    intro n h hmem hlive
    rcases List.mem_cons.mp (hnames n h hmem hlive) with rfl | hrest
    · exact absurd (List.mem_map.mpr ⟨_, hmem, rfl⟩) (not_mem_names_of_exchangeShared hx)
    · exact hrest

end Tidy

end Fibers
