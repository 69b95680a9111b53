import Fibers.Stack.Allocator
import Fibers.Stack.Registry
import Mathlib.Data.List.TakeWhile

/-!
# What the registry tells

As long as the registered ranges do not meet, looking at one range is enough: an address lies on the
stack of a fiber exactly if some registered range contains it.
-/

namespace Fibers

theorem Region.Apart.beside {r s : Region} (h : r.Apart s) (hr : r.bottom < r.top)
    (hs : s.bottom < s.top) : s.top ≤ r.bottom ∨ r.top ≤ s.bottom := by
  by_cases hle : r.bottom ≤ s.bottom
  · have hnot := h s.bottom
    simp only [Region.contains] at hnot
    omega
  · have hnot := h r.bottom
    simp only [Region.contains] at hnot
    omega

/-! ## Ordered ranges -/

/-- Ranges that are not empty and do not meet, listed by rising address. -/
structure OrderedRanges (ranges : List Region) : Prop where
  apart : ranges.Pairwise fun a b => a.top ≤ b.bottom
  filled : forall r, r ∈ ranges -> r.bottom < r.top

namespace OrderedRanges

variable {r : Region} {rest : List Region}

theorem tail (h : OrderedRanges (r :: rest)) : OrderedRanges rest where
  apart := h.apart.of_cons
  filled := fun s hs => h.filled s (List.mem_cons_of_mem r hs)

theorem head_le (h : OrderedRanges (r :: rest)) {s : Region} (hs : s ∈ rest) :
    r.top ≤ s.bottom :=
  List.rel_of_pairwise_cons h.apart hs

theorem eq_of_bottom {ranges : List Region} (h : OrderedRanges ranges) {a b : Region}
    (ha : a ∈ ranges) (hb : b ∈ ranges) (hab : a.bottom = b.bottom) : a = b := by
  induction ranges with
  | nil => cases ha
  | cons r rest ih =>
      rcases List.mem_cons.mp ha with rfl | harest
      · rcases List.mem_cons.mp hb with rfl | hbrest
        · rfl
        · have hle := h.head_le hbrest
          have hfilled := h.filled a ha
          omega
      · rcases List.mem_cons.mp hb with rfl | hbrest
        · have hle := h.head_le harest
          have hfilled := h.filled b hb
          omega
        · exact ih h.tail harest hbrest

end OrderedRanges

namespace Registry

variable {g : Registry} {a : Nat}

/-! ## Looking up an address -/

theorem takeWhile_eq_nil {ranges : List Region} (h : forall r, r ∈ ranges -> a < r.bottom) :
    ranges.takeWhile (fun s => decide (s.bottom ≤ a)) = [] := by
  cases ranges with
  | nil => rfl
  | cons r rest =>
      have hr := h r List.mem_cons_self
      have hnot : ¬ r.bottom ≤ a := Nat.not_le.mpr hr
      simp [hnot]

/-- The range that is looked at is the one that contains the address, if there is any. -/
theorem getLast?_takeWhile {ranges : List Region} (h : OrderedRanges ranges) {r : Region}
    (hr : r ∈ ranges) (hcontains : r.contains a) :
    (ranges.takeWhile (fun s => decide (s.bottom ≤ a))).getLast? = some r := by
  induction ranges with
  | nil => cases hr
  | cons s rest ih =>
      rcases hcontains with ⟨hbottom, htop⟩
      rcases List.mem_cons.mp hr with rfl | hrest
      · have hnone : rest.takeWhile (fun s => decide (s.bottom ≤ a)) = [] := by
          apply takeWhile_eq_nil
          intro t ht
          exact Nat.lt_of_lt_of_le htop (h.head_le ht)
        simp [hbottom, hnone]
      · have hs : s.bottom ≤ a := by
          have hle := h.head_le hrest
          have hfilled := h.filled s List.mem_cons_self
          omega
        have hlast := ih h.tail hrest
        rw [List.takeWhile_cons, if_pos (decide_eq_true hs), List.getLast?_cons, hlast]
        rfl

theorem kindAt_eq_fiber (h : OrderedRanges g.ranges) :
    g.kindAt a = .fiber ↔ exists r, r ∈ g.ranges ∧ r.contains a := by
  constructor
  · intro hkind
    unfold kindAt at hkind
    split at hkind
    · rename_i r hlast
      split at hkind
      · rename_i htop
        have hmem : r ∈ g.ranges.takeWhile (fun s => decide (s.bottom ≤ a)) :=
          List.mem_of_getLast? hlast
        have hbottom : r.bottom ≤ a := by simpa using List.mem_takeWhile_imp hmem
        exact ⟨r, (List.takeWhile_sublist _).subset hmem, hbottom, htop⟩
      · cases hkind
    · cases hkind
  · intro hcovered
    rcases hcovered with ⟨r, hr, hcontains⟩
    have hlast : g.lastBelow a = some r := getLast?_takeWhile h hr hcontains
    simp only [kindAt, hlast, if_pos hcontains.2]

/-! ## Ranges that come and go -/

theorem mem_insertRange {r s : Region} {ranges : List Region}
    (hr : forall t, t ∈ ranges -> t.bottom ≠ r.bottom) :
    s ∈ insertRange r ranges ↔ s = r ∨ s ∈ ranges := by
  induction ranges with
  | nil => simp [insertRange]
  | cons t rest ih =>
      have ht := hr t List.mem_cons_self
      have hrest := ih fun u hu => hr u (List.mem_cons_of_mem t hu)
      unfold insertRange
      split
      · simp
      · rw [if_neg (Ne.symm ht), List.mem_cons, hrest, List.mem_cons]
        grind

theorem OrderedRanges.insertRange {r : Region} {ranges : List Region} (h : OrderedRanges ranges)
    (hfilled : r.bottom < r.top)
    (hr : forall s, s ∈ ranges -> s.top ≤ r.bottom ∨ r.top ≤ s.bottom) :
    OrderedRanges (insertRange r ranges) := by
  have hbottom : forall s, s ∈ ranges -> s.bottom ≠ r.bottom := by
    intro s hs
    have hsfilled := h.filled s hs
    rcases hr s hs with hle | hle
    · omega
    · omega
  constructor
  · induction ranges with
    | nil => exact List.pairwise_singleton _ _
    | cons s rest ih =>
        have hs := hr s List.mem_cons_self
        have hsfilled := h.filled s List.mem_cons_self
        have hrest := fun t ht => hr t (List.mem_cons_of_mem s ht)
        have hrestBottom := fun t ht => hbottom t (List.mem_cons_of_mem s ht)
        unfold Registry.insertRange
        split
        · rename_i hlt
          have hle : r.top ≤ s.bottom := by omega
          refine List.Pairwise.cons ?_ h.apart
          intro t ht
          rcases List.mem_cons.mp ht with rfl | ht
          · exact hle
          · have hhead := h.head_le ht
            omega
        · rename_i hnot
          rw [if_neg (Ne.symm (hbottom s List.mem_cons_self))]
          refine List.Pairwise.cons ?_ (ih h.tail hrest hrestBottom)
          intro t ht
          rcases (mem_insertRange hrestBottom).mp ht with rfl | ht
          · omega
          · exact h.head_le ht
  · intro s hs
    rcases (mem_insertRange hbottom).mp hs with rfl | hs
    · exact hfilled
    · exact h.filled s hs

theorem OrderedRanges.erase {r : Region} (h : OrderedRanges g.ranges) :
    OrderedRanges (g.erase r).ranges where
  apart := h.apart.filter _
  filled := fun s hs => h.filled s (List.mem_filter.mp hs).1

/-- A registered range is the only one that its release takes out. -/
theorem mem_erase {r s : Region} (h : OrderedRanges g.ranges) (hr : r ∈ g.ranges) :
    s ∈ (g.erase r).ranges ↔ s ∈ g.ranges ∧ s ≠ r := by
  simp only [erase, List.mem_filter, decide_eq_true_eq]
  constructor
  · intro hkept
    rcases hkept with ⟨hs, hne⟩
    refine ⟨hs, ?_⟩
    intro heq
    subst heq
    exact hne rfl
  · intro hkept
    rcases hkept with ⟨hs, hne⟩
    exact ⟨hs, fun hbottom => hne (h.eq_of_bottom hs hr hbottom)⟩

/-! ## Any sequence of changes -/

/-- The registry is told of a stack that comes into use, or of one that goes out of use. -/
inductive Change where
  | enters (r : Region)
  | leaves (r : Region)

def change (g : Registry) : Change -> Registry
  | .enters r => g.insert r
  | .leaves r => g.erase r

/-- The ranges in use after a change. -/
def Change.inUse (live : List Region) : Change -> List Region
  | .enters r => r :: live
  | .leaves r => live.erase r

/-- A change that is made while some ranges are in use, as allocators have to make it. -/
def Change.Fair (live : List Region) : Change -> Prop
  | .enters r => r.bottom < r.top ∧ forall s, s ∈ live -> r.Apart s
  | .leaves r => r ∈ live

/-- All of some changes are fair, each to the ranges in use after those before it. -/
def AllFair : List Region -> List Change -> Prop
  | _, [] => True
  | live, c :: rest => c.Fair live ∧ AllFair (c.inUse live) rest

/-- What is registered are the ranges in use. -/
structure Keeps (g : Registry) (live : List Region) : Prop where
  ordered : OrderedRanges g.ranges
  registered : forall r, r ∈ g.ranges ↔ r ∈ live
  once : live.Nodup

theorem Keeps.change {live : List Region} {c : Change} (h : g.Keeps live) (hfair : c.Fair live) :
    (g.change c).Keeps (c.inUse live) := by
  cases c with
  | enters r =>
      rcases hfair with ⟨hfilled, hapart⟩
      have hbeside : forall s, s ∈ g.ranges -> s.top ≤ r.bottom ∨ r.top ≤ s.bottom := by
        intro s hs
        exact (hapart s ((h.registered s).mp hs)).beside hfilled (h.ordered.filled s hs)
      have hne : forall s, s ∈ g.ranges -> s.bottom ≠ r.bottom := by
        intro s hs heq
        have hsfilled := h.ordered.filled s hs
        rcases hbeside s hs with hle | hle
        · omega
        · omega
      refine ⟨OrderedRanges.insertRange h.ordered hfilled hbeside, ?_, ?_⟩
      · intro s
        rw [Change.inUse, List.mem_cons, <- h.registered]
        exact mem_insertRange hne
      · refine List.nodup_cons.mpr ⟨?_, h.once⟩
        intro hr
        exact hne r ((h.registered r).mpr hr) rfl
  | leaves r =>
      refine ⟨OrderedRanges.erase h.ordered, ?_, h.once.erase r⟩
      intro s
      rw [Change.inUse, h.once.mem_erase_iff, and_comm, <- h.registered]
      exact mem_erase h.ordered ((h.registered r).mpr hfair)

theorem Keeps.foldl {live : List Region} {changes : List Change} (h : g.Keeps live)
    (hfair : AllFair live changes) :
    (changes.foldl Registry.change g).Keeps (changes.foldl Change.inUse live) := by
  induction changes generalizing g live with
  | nil => exact h
  | cons c rest ih => exact ih (h.change hfair.1) hfair.2

theorem keeps_empty : Keeps {} [] where
  ordered := ⟨List.Pairwise.nil, by simp⟩
  registered := fun r => Iff.rfl
  once := List.nodup_nil

/--
Whatever stacks have come into use and gone out of use, an address is told to be on the stack of a
fiber exactly if a range in use contains it.
-/
theorem kind_tells_use {changes : List Change} (hfair : AllFair [] changes) (a : Nat) :
    (changes.foldl change {}).kindAt a = .fiber ↔
      exists r, r ∈ changes.foldl Change.inUse [] ∧ r.contains a := by
  have hkeeps := keeps_empty.foldl hfair
  rw [kindAt_eq_fiber hkeeps.ordered]
  simp only [hkeeps.registered]

/-- Changes to look at: of two ranges side by side, one is freed and handed out again, with less. -/
def reusedRange : List Change :=
  [.enters ⟨4096, 8192⟩, .enters ⟨8192, 12288⟩, .leaves ⟨4096, 8192⟩, .enters ⟨4096, 6144⟩]

/-- What is left between the two ranges is nobody's. -/
theorem kind_tells_use_of_reusedRange :
    AllFair [] reusedRange ∧ (reusedRange.foldl change {}).kindAt 6143 = .fiber ∧
      (reusedRange.foldl change {}).kindAt 6144 ≠ .fiber ∧
      (reusedRange.foldl change {}).kindAt 8192 = .fiber := by
  have hfair : AllFair [] reusedRange := by
    simp only [reusedRange, AllFair, Change.Fair, Change.inUse, Region.Apart, Region.contains]
    grind
  have hlive : reusedRange.foldl Change.inUse [] = [⟨4096, 6144⟩, ⟨8192, 12288⟩] := by decide
  have htells := fun a => kind_tells_use hfair a
  simp only [hlive, List.mem_cons, List.not_mem_nil, or_false] at htells
  refine ⟨hfair, (htells 6143).mpr ⟨_, Or.inl rfl, by decide⟩, ?_,
    (htells 8192).mpr ⟨_, Or.inr rfl, by decide⟩⟩
  intro hfiber
  rcases (htells 6144).mp hfiber with ⟨r, rfl | rfl, hcontains⟩
  · exact absurd hcontains (by decide)
  · exact absurd hcontains (by decide)

end Registry

end Fibers
