import Fibers.Handle
import Mathlib.Data.List.Induction
import Mathlib.Data.List.Nodup
import Mathlib.Data.List.Perm.Basic
import Mathlib.Order.Compare

/-!
# Handles as keys

The comparison of handles is a total order that agrees with equality.  So a set of handles, sorted
or hashed, holds each handle once that was put into it, and gives none up but those it has already.
-/

namespace Fibers

namespace Handle

/-! ## The order -/

@[simp] theorem order_self (h : Handle) : h.order h = .eq := by
  cases h <;> simp [order]

theorem order_eq_eq {a b : Handle} : a.order b = .eq ↔ a = b := by
  cases a <;> cases b <;> simp [order]

theorem order_swap (a b : Handle) : b.order a = (a.order b).swap := by
  cases a with
  | empty => cases b <;> rfl
  | live c =>
      cases b with
      | empty => rfl
      | live d => exact (Nat.compare_swap c d).symm

theorem order_eq_gt {a b : Handle} : a.order b = .gt ↔ b.order a = .lt := by
  rw [order_swap b a]
  cases b.order a <;> decide

theorem order_lt_trans {a b c : Handle} (hab : a.order b = .lt) (hbc : b.order c = .lt) :
    a.order c = .lt := by
  cases a <;> cases b <;> cases c <;> simp_all [order, Nat.compare_eq_lt]
  omega

/-- One handle is at most another. -/
theorem order_le_trans {a b c : Handle} (hab : (a.order b).isLE) (hbc : (b.order c).isLE) :
    (a.order c).isLE := by
  cases ha : a.order b with
  | gt => rw [ha] at hab; cases hab
  | eq => rwa [order_eq_eq.mp ha]
  | lt =>
      cases hb : b.order c with
      | gt => rw [hb] at hbc; cases hbc
      | eq => rw [<- order_eq_eq.mp hb, ha]; rfl
      | lt => rw [order_lt_trans ha hb]; rfl

theorem isConsistent_eq_true (a b : Handle) : a.isConsistent b = true := by
  have hswap := order_swap a b
  have heq : a.order b = .eq ↔ a = b := order_eq_eq
  by_cases hab : a = b
  · simp [isConsistent, hab]
  · have hne : a.order b ≠ .eq := fun h => hab (heq.mp h)
    simp [isConsistent, hab, hne, hswap]

/-! ## Hashes -/

/-- What a handle gives a hasher: whether there is a context, and which. -/
def hashed : Handle -> List Nat
  | empty => [0]
  | live context => [1, context]

theorem hashed_inj {a b : Handle} : a.hashed = b.hashed ↔ a = b := by
  cases a <;> cases b <;> simp [hashed]

/-- Puts a handle into a set that looks for it only among those of the same hash. -/
def insertHashed (hasher : List Nat -> Nat) (set : List Handle) (h : Handle) : List Handle :=
  if set.any (fun k => hasher k.hashed = hasher h.hashed && k = h) then set else h :: set

def hashedSet (hasher : List Nat -> Nat) (hs : List Handle) : List Handle :=
  hs.foldl (insertHashed hasher) []

/-- Equal handles have one hash, so whatever the hasher is, an equal handle is found. -/
theorem hashedSet_eq (hasher : List Nat -> Nat) (hs : List Handle) :
    hashedSet hasher hs = distinctSet hs := by
  have hinsert : insertHashed hasher = fun set h => if h ∈ set then set else h :: set := by
    funext set h
    have hfound : set.any (fun k => hasher k.hashed = hasher h.hashed && k = h) = true ↔
        h ∈ set := by
      simp only [List.any_eq_true, Bool.and_eq_true, decide_eq_true_eq]
      constructor
      · rintro ⟨k, hk, -, rfl⟩
        exact hk
      · exact fun hmem => ⟨h, hmem, rfl, rfl⟩
    simp only [insertHashed, hfound]
  rw [hashedSet, hinsert, distinctSet]

/-! ## Sorted sets -/

/-- Rising, with no two equal. -/
def Rising (set : List Handle) : Prop := set.Pairwise fun a b => a.order b = .lt

theorem Rising.nodup {set : List Handle} (h : Rising set) : set.Nodup := by
  apply List.Pairwise.imp _ h
  rintro a b hlt rfl
  rw [order_self] at hlt
  cases hlt

@[simp] theorem mem_insertOrdered {h k : Handle} {set : List Handle} :
    k ∈ insertOrdered h set ↔ k = h ∨ k ∈ set := by
  induction set with
  | nil => simp [insertOrdered]
  | cons first rest ih =>
      cases horder : h.order first with
      | lt => simp [insertOrdered, horder]
      | eq =>
          have heq := order_eq_eq.mp horder
          simp [insertOrdered, heq]
      | gt =>
          simp only [insertOrdered, horder, List.mem_cons, ih]
          tauto

theorem Rising.insertOrdered {set : List Handle} (hset : Rising set) (h : Handle) :
    Rising (insertOrdered h set) := by
  induction set with
  | nil => exact List.pairwise_singleton _ _
  | cons first rest ih =>
      rcases List.pairwise_cons.mp hset with ⟨hfirst, hrest⟩
      cases horder : h.order first with
      | lt =>
          simp only [Handle.insertOrdered, horder]
          refine List.pairwise_cons.mpr ⟨?_, hset⟩
          intro k hk
          rcases List.mem_cons.mp hk with rfl | hk
          · exact horder
          · exact order_lt_trans horder (hfirst k hk)
      | eq =>
          simp only [Handle.insertOrdered, horder]
          exact hset
      | gt =>
          simp only [Handle.insertOrdered, horder]
          refine List.pairwise_cons.mpr ⟨?_, ih hrest⟩
          intro k hk
          rcases mem_insertOrdered.mp hk with rfl | hk
          · exact order_eq_gt.mp horder
          · exact hfirst k hk

theorem orderedSet_concat (hs : List Handle) (h : Handle) :
    orderedSet (hs ++ [h]) = insertOrdered h (orderedSet hs) := by
  simp [orderedSet]

theorem rising_orderedSet (hs : List Handle) : Rising (orderedSet hs) := by
  induction hs using List.reverseRecOn with
  | nil => exact List.Pairwise.nil
  | append_singleton hs h ih =>
      rw [orderedSet_concat]
      exact ih.insertOrdered h

@[simp] theorem mem_orderedSet {hs : List Handle} {k : Handle} : k ∈ orderedSet hs ↔ k ∈ hs := by
  induction hs using List.reverseRecOn with
  | nil => rfl
  | append_singleton hs h ih => simp [orderedSet_concat, ih, or_comm]

/-- The least handle of a sorted set is empty if any is. -/
theorem head_orderedSet {hs : List Handle} : (orderedSet hs).head? = some .empty ↔ .empty ∈ hs := by
  constructor
  · intro hhead
    exact mem_orderedSet.mp (List.mem_of_mem_head? hhead)
  · intro hmem
    have hset := rising_orderedSet hs
    have hmem' := mem_orderedSet.mpr hmem
    cases hlist : orderedSet hs with
    | nil => rw [hlist] at hmem'; cases hmem'
    | cons first rest =>
        rw [hlist] at hset hmem'
        rcases List.mem_cons.mp hmem' with rfl | hrest
        · rfl
        · have hbelow := (List.pairwise_cons.mp hset).1 _ hrest
          cases first <;> simp [order] at hbelow

theorem isEmpty_of_head {hs : List Handle} {first : Handle}
    (hfirst : (orderedSet hs).head? = some first) : first.isEmpty = decide (.empty ∈ hs) := by
  have hiff : (orderedSet hs).head? = some .empty ↔ .empty ∈ hs := head_orderedSet
  rw [hfirst, Option.some.injEq] at hiff
  cases first with
  | empty => exact (decide_eq_true (hiff.mp rfl)).symm
  | live c => exact (decide_eq_false fun hmem => nomatch hiff.mpr hmem).symm

/-! ## Sets by equality -/

theorem distinctSet_concat (hs : List Handle) (h : Handle) :
    distinctSet (hs ++ [h]) =
      if h ∈ distinctSet hs then distinctSet hs else h :: distinctSet hs := by
  rw [distinctSet, List.foldl_append]
  rfl

@[simp] theorem mem_distinctSet {hs : List Handle} {k : Handle} : k ∈ distinctSet hs ↔ k ∈ hs := by
  induction hs using List.reverseRecOn with
  | nil => rfl
  | append_singleton hs h ih =>
      rw [distinctSet_concat, List.mem_append, List.mem_singleton, <- ih]
      split
      · rename_i hmem
        constructor
        · exact Or.inl
        · rintro (hold | rfl)
          · exact hold
          · exact hmem
      · rw [List.mem_cons, or_comm]

theorem nodup_distinctSet (hs : List Handle) : (distinctSet hs).Nodup := by
  induction hs using List.reverseRecOn with
  | nil => exact List.nodup_nil
  | append_singleton hs h ih =>
      rw [distinctSet_concat]
      split
      · exact ih
      · rename_i hnew
        exact List.nodup_cons.mpr ⟨hnew, ih⟩

/-! ## Sizes -/

/-- How many of some handles are live. -/
def liveAmong (hs : List Handle) : Nat := hs.countP fun h => !h.isEmpty

/-- The size of a set of handles, no two of which name the same context. -/
def sizeAmong (hs : List Handle) : Nat := liveAmong hs + if .empty ∈ hs then 1 else 0

section Sizes

variable {hs set : List Handle} (honce : forall c, hs.count (.live c) ≤ 1) (hset : set.Nodup)
  (hmem : forall k, k ∈ set ↔ k ∈ hs)

include honce hset hmem

/-- A set holds each live handle as often as it was put in: none is given up. -/
theorem count_live_of_set (c : ContextId) : set.count (.live c) = hs.count (.live c) := by
  rw [List.Nodup.count hset]
  have hle := honce c
  split
  · rename_i hin
    have hpos := List.count_pos_iff.mpr ((hmem _).mp hin)
    omega
  · rename_i hout
    exact (List.count_eq_zero.mpr fun hin => hout ((hmem _).mpr hin)).symm

theorem length_of_set : set.length = sizeAmong hs := by
  have hlive : (set.filter fun h => !h.isEmpty).Perm (hs.filter fun h => !h.isEmpty) := by
    refine (List.perm_ext_iff_of_nodup (hset.filter _) ?_).mpr ?_
    · apply List.nodup_iff_count_le_one.mpr
      intro h
      cases h with
      | empty =>
          have hnone : (hs.filter fun h => !h.isEmpty).count .empty = 0 :=
            List.count_eq_zero.mpr (by simp [isEmpty])
          omega
      | live c => exact Nat.le_trans (List.filter_sublist.count_le _) (honce c)
    · intro h
      simp only [List.mem_filter, hmem]
  have hempty : (set.countP fun h => ¬ (!h.isEmpty) = true) = set.count .empty := by
    apply List.countP_congr
    intro h _
    cases h <;> simp [isEmpty]
  rw [List.length_eq_countP_add_countP (fun h => !h.isEmpty), hempty, List.Nodup.count hset,
    List.countP_eq_length_filter, hlive.length_eq, <- List.countP_eq_length_filter]
  simp only [sizeAmong, liveAmong, hmem]

end Sizes

/-! ## Saved addresses -/

/-- A handle as it is compared: by the address that its context was saved at. -/
def savedAt (address : ContextId -> Nat) : Handle -> Handle
  | empty => empty
  | live context => live (address context)

@[simp] theorem isEmpty_savedAt (address : ContextId -> Nat) (h : Handle) :
    (h.savedAt address).isEmpty = h.isEmpty := by
  cases h <;> rfl

theorem savedAt_eq_empty {address : ContextId -> Nat} {h : Handle} :
    h.savedAt address = .empty ↔ h = .empty := by
  cases h <;> simp [savedAt]

/-- A handle that different things are mapped to only once is once among what they are mapped to. -/
theorem count_map_le_one {α : Type} {f : α -> Handle} {xs : List α} {h : Handle}
    (hxs : xs.Nodup) (honce : forall x y, f x = h -> f y = h -> x = y) :
    (xs.map f).count h ≤ 1 := by
  induction xs with
  | nil => exact Nat.zero_le 1
  | cons x rest ih =>
      rcases List.nodup_cons.mp hxs with ⟨hfirst, hrest⟩
      rw [List.map_cons, List.count_cons]
      split
      · rename_i hx
        have hnone : (rest.map f).count h = 0 := by
          rw [List.count_eq_zero, List.mem_map]
          rintro ⟨y, hy, hyh⟩
          exact hfirst (honce y x hyh (by simpa using hx) ▸ hy)
        omega
      · exact ih hrest

end Handle

end Fibers
