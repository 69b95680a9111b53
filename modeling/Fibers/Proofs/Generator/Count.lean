import Fibers.Generator
import Mathlib.Data.Nat.Digits.Defs

/-!
# How many numbers are asked for

The first argument asks for as many numbers as it says if it is a decimal number that fits a word.
Where it is not, or there is none, ten are asked for.  What a decimal number is, and what it is
worth, is told by its digits.
-/

namespace Fibers

namespace Generator

/-! ## Numerals -/

/-- The characters of a list of digits. -/
def numeral (digits : List (Fin 10)) : List Char := digits.map fun d => Nat.digitChar d.val

/-- What a list of digits is worth, the first of them counting most. -/
def worth (digits : List (Fin 10)) : Nat := Nat.ofDigits 10 (digits.map Fin.val).reverse

theorem worth_nil : worth [] = 0 := rfl

theorem worth_cons (d : Fin 10) (rest : List (Fin 10)) :
    worth (d :: rest) = 10 ^ rest.length * d + worth rest := by
  rw [worth, List.map_cons, List.reverse_cons, Nat.ofDigits_append, Nat.ofDigits_singleton,
    List.length_reverse, List.length_map, Nat.add_comm]
  rfl

/-- A text that is a decimal number: digits, at least one, and perhaps a plus sign before them. -/
def Reads (text : String) (n : Nat) : Prop :=
  exists sign digits, (sign = [] ∨ sign = ['+']) ∧ digits ≠ [] ∧
    text.toList = sign ++ numeral digits ∧ worth digits = n ∧
      n < 2 ^ 64

/-- The number that some arguments ask for: what the first one says, and ten if it says none. -/
def Asks (args : List String) (n : Nat) : Prop :=
  (exists text rest, args = text :: rest ∧ Reads text n) ∨
    (forall text rest m, args = text :: rest -> ¬ Reads text m) ∧ n = 10

/-! ## Reading them -/

theorem digitChar_eq (d : Fin 10) : Nat.digitChar d = Char.ofNat (48 + d) := by
  revert d
  decide

theorem digit?_digitChar (d : Fin 10) : digit? (Nat.digitChar d) = some d.val := by
  revert d
  decide

theorem digit?_eq_some {c : Char} {value : Nat} :
    digit? c = some value ↔ exists d : Fin 10, c = Nat.digitChar d ∧ value = d := by
  constructor
  · intro h
    unfold digit? at h
    split at h
    · rename_i hrange
      have hlow : 48 ≤ c.toNat := hrange.1
      have hhigh : c.toNat ≤ 57 := hrange.2
      have hvalue : c.toNat - 48 = value := Option.some.inj h
      refine ⟨⟨value, by omega⟩, ?_, rfl⟩
      have hcode : 48 + value = c.toNat := by omega
      rw [digitChar_eq, hcode, Char.ofNat_toNat]
    · cases h
  · rintro ⟨d, rfl, rfl⟩
    exact digit?_digitChar d

/-- Digits that follow others are read as if these were worth so many times ten. -/
theorem digitsValue?_eq_some {value n : Nat} {cs : List Char} :
    digitsValue? value cs = some n ↔
      exists digits : List (Fin 10), cs = numeral digits ∧
        n = value * 10 ^ digits.length + worth digits := by
  induction cs generalizing value with
  | nil =>
      constructor
      · intro h
        cases h
        exact ⟨[], rfl, by simp [worth_nil]⟩
      · rintro ⟨digits, hdigits, rfl⟩
        cases List.map_eq_nil_iff.mp hdigits.symm
        simp [digitsValue?, worth_nil]
  | cons c rest ih =>
      simp only [digitsValue?, Option.bind_eq_some_iff, digit?_eq_some]
      constructor
      · rintro ⟨_, ⟨d, rfl, rfl⟩, hrest⟩
        rcases ih.mp hrest with ⟨digits, rfl, rfl⟩
        refine ⟨d :: digits, rfl, ?_⟩
        rw [worth_cons, List.length_cons, Nat.pow_succ]
        ring
      · rintro ⟨digits, hdigits, rfl⟩
        cases digits with
        | nil => cases hdigits
        | cons d digits =>
            cases hdigits
            refine ⟨d, ⟨d, rfl, rfl⟩, ih.mpr ⟨digits, rfl, ?_⟩⟩
            rw [worth_cons, List.length_cons, Nat.pow_succ]
            ring

theorem digitsValue?_zero {n : Nat} {cs : List Char} :
    digitsValue? 0 cs = some n ↔
      exists digits : List (Fin 10), cs = numeral digits ∧
        worth digits = n := by
  rw [digitsValue?_eq_some]
  simp only [Nat.zero_mul, Nat.zero_add, eq_comm]

/-- No digit looks like a plus sign. -/
theorem digitChar_ne_plus (d : Fin 10) : Nat.digitChar d ≠ '+' := by
  revert d
  decide

/-- The characters of a text after a plus sign, if there is one. -/
def unsigned : List Char -> List Char
  | '+' :: rest => rest
  | cs => cs

theorem unsigned_eq_iff {cs : List Char} {digits : List (Fin 10)} (hdigits : digits ≠ []) :
    unsigned cs = numeral digits ↔
      exists sign, (sign = [] ∨ sign = ['+']) ∧
        cs = sign ++ numeral digits := by
  constructor
  · intro h
    unfold unsigned at h
    split at h
    · exact ⟨['+'], Or.inr rfl, by rw [<- h]; rfl⟩
    · exact ⟨[], Or.inl rfl, h⟩
  · rintro ⟨sign, rfl | rfl, rfl⟩
    · cases digits with
      | nil => exact absurd rfl hdigits
      | cons d digits =>
          simp only [List.nil_append, numeral, List.map_cons, unsigned]
          split
          · rename_i hplus
            exact absurd (List.cons.inj hplus).1 (digitChar_ne_plus d)
          · rfl
    · rfl

theorem count?_eq (text : String) :
    count? text =
      if unsigned text.toList = [] then none
      else (digitsValue? 0 (unsigned text.toList)).filter (· < wordLimit) := by
  cases hchars : text.toList with
  | nil => simp [count?, hchars, unsigned]
  | cons c rest =>
      by_cases hplus : c = '+'
      · subst hplus
        cases rest <;> simp [count?, hchars, unsigned]
      · simp [count?, hchars, unsigned, hplus]

/-- A text is read as a number exactly if it is that number in decimal. -/
theorem count?_eq_some {text : String} {n : Nat} : count? text = some n ↔ Reads text n := by
  rw [count?_eq]
  constructor
  · intro h
    split at h
    · cases h
    · rename_i hnonempty
      rcases Option.filter_eq_some_iff.mp h with ⟨hvalue, hword⟩
      rcases digitsValue?_zero.mp hvalue with ⟨digits, hdigits, hworth⟩
      have hsome : digits ≠ [] := by
        rintro rfl
        exact hnonempty hdigits
      rcases (unsigned_eq_iff hsome).mp hdigits with ⟨sign, hsign, htext⟩
      exact ⟨sign, digits, hsign, hsome, htext, hworth, of_decide_eq_true hword⟩
  · rintro ⟨sign, digits, hsign, hsome, htext, hworth, hword⟩
    have hdigits := (unsigned_eq_iff hsome).mpr ⟨sign, hsign, htext⟩
    have hnonempty : unsigned text.toList ≠ [] := by
      rw [hdigits]
      exact fun hnil => hsome (List.map_eq_nil_iff.mp hnil)
    rw [if_neg hnonempty]
    exact Option.filter_eq_some_iff.mpr
      ⟨digitsValue?_zero.mpr ⟨digits, hdigits, hworth⟩, decide_eq_true hword⟩

/-- Arguments ask for one number, and it is the one that is counted to. -/
theorem asks_iff {args : List String} {n : Nat} : Asks args n ↔ n = countOf args := by
  cases args with
  | nil =>
      constructor
      · rintro (⟨text, rest, ⟨⟩, -⟩ | ⟨-, hten⟩)
        exact hten
      · intro hten
        refine Or.inr ⟨?_, hten⟩
        rintro text rest m ⟨⟩
  | cons text rest =>
      have hcount : countOf (text :: rest) = (count? text).getD defaultCount := rfl
      rw [hcount]
      cases hread : count? text with
      | none =>
          have hnone : forall m, ¬ Reads text m := by
            intro m hreads
            cases hread.symm.trans (count?_eq_some.mpr hreads)
          constructor
          · rintro (⟨_, _, ⟨⟩, hreads⟩ | ⟨-, hten⟩)
            · exact absurd hreads (hnone n)
            · exact hten
          · intro hten
            refine Or.inr ⟨?_, hten⟩
            rintro _ _ m ⟨⟩
            exact hnone m
      | some m =>
          have hreads := count?_eq_some.mp hread
          constructor
          · rintro (⟨_, _, ⟨⟩, hreads'⟩ | ⟨hnone, -⟩)
            · exact Option.some.inj ((count?_eq_some.mpr hreads').symm.trans hread)
            · exact absurd hreads (hnone text rest m rfl)
          · rintro rfl
            exact Or.inl ⟨text, rest, rfl, hreads⟩

theorem countOf_lt (args : List String) : countOf args < wordLimit := by
  rcases asks_iff.mpr rfl with ⟨text, rest, -, hreads⟩ | ⟨-, hten⟩
  · rcases hreads with ⟨_, _, _, _, _, _, hword⟩
    exact hword
  · rw [hten]
    decide

end Generator

end Fibers
