import Fibers.Machine.State

/-!
# The list of contexts

Each context is listed once, so looking one up says all about it.  A switch puts other stacks in
the places of two contexts; how often something occurs in the whole list then changes by what the
stacks differ in.
-/

namespace Fibers

variable {α : Type} [DecidableEq α] {x : α} {f : ContextId × List Frame -> List α}
  {contexts : List (ContextId × List Frame)} {c d : ContextId} {stack old : List Frame}

def contextKeys (contexts : List (ContextId × List Frame)) : List ContextId :=
  contexts.map Prod.fst

/-! ## Looking up -/

theorem mem_of_lookup (h : contexts.lookup c = some stack) : (c, stack) ∈ contexts := by
  rcases List.lookup_eq_some_iff.mp h with ⟨before, after, heq, -⟩
  rw [heq]
  simp

theorem lookup_of_mem (hkeys : (contextKeys contexts).Nodup) (h : (c, stack) ∈ contexts) :
    contexts.lookup c = some stack := by
  induction contexts with
  | nil => cases h
  | cons entry rest ih =>
      rcases entry with ⟨d, there⟩
      rcases List.nodup_cons.mp hkeys with ⟨hfirst, hrest⟩
      rcases List.mem_cons.mp h with heq | hmem
      · cases heq
        exact List.lookup_cons_self
      · have hne : c ≠ d := by
          intro heq
          subst heq
          exact hfirst (List.mem_map.mpr ⟨_, hmem, rfl⟩)
        have hlookup : (c == d) = false := by simpa using hne
        rw [List.lookup_cons, hlookup]
        exact ih hrest hmem

theorem mem_contextKeys : c ∈ contextKeys contexts ↔ exists stack, contexts.lookup c = some stack := by
  rw [<- Option.isSome_iff_exists, List.lookup_isSome_iff]
  simp [contextKeys]

/-! ## Another stack for a context -/

@[simp] theorem contextKeys_replaceStack :
    contextKeys (replaceStack c stack contexts) = contextKeys contexts := by
  induction contexts with
  | nil => rfl
  | cons entry rest ih =>
      rcases entry with ⟨d, there⟩
      by_cases hd : d = c
      · simp [replaceStack, hd, contextKeys]
      · simp only [contextKeys] at ih
        simp [replaceStack, hd, contextKeys, ih]

theorem eq_or_mem_of_mem_replaceStack {entry : ContextId × List Frame}
    (h : entry ∈ replaceStack c stack contexts) : entry.2 = stack ∨ entry ∈ contexts := by
  induction contexts with
  | nil => exact Or.inr h
  | cons first rest ih =>
      rcases first with ⟨d, there⟩
      by_cases hd : d = c
      · simp only [replaceStack, hd, if_true] at h
        rcases List.mem_cons.mp h with rfl | hrest
        · exact Or.inl rfl
        · exact Or.inr (List.mem_cons_of_mem _ hrest)
      · simp only [replaceStack, hd, if_false] at h
        rcases List.mem_cons.mp h with rfl | hrest
        · exact Or.inr List.mem_cons_self
        · rcases ih hrest with heq | hmem
          · exact Or.inl heq
          · exact Or.inr (List.mem_cons_of_mem _ hmem)

theorem lookup_replaceStack_self (h : contexts.lookup c = some old) :
    (replaceStack c stack contexts).lookup c = some stack := by
  induction contexts with
  | nil => cases h
  | cons entry rest ih =>
      rcases entry with ⟨d, there⟩
      by_cases hd : d = c
      · simp [replaceStack, hd]
      · have hne : (c == d) = false := by simpa using Ne.symm hd
        rw [List.lookup_cons, hne] at h
        simp [replaceStack, hd, List.lookup_cons, hne, ih h]

theorem count_replaceStack (h : contexts.lookup c = some old) :
    ((replaceStack c stack contexts).flatMap f).count x + (f (c, old)).count x =
      (contexts.flatMap f).count x + (f (c, stack)).count x := by
  induction contexts with
  | nil => cases h
  | cons entry rest ih =>
      rcases entry with ⟨d, there⟩
      by_cases hd : d = c
      · subst hd
        rw [List.lookup_cons_self, Option.some.injEq] at h
        subst h
        simp only [replaceStack, if_true, List.flatMap_cons, List.count_append]
        omega
      · have hne : (c == d) = false := by simpa using Ne.symm hd
        rw [List.lookup_cons, hne] at h
        have hrest := ih h
        simp only [replaceStack, hd, if_false, List.flatMap_cons, List.count_append]
        omega

/-! ## A context less -/

theorem contextKeys_filter :
    contextKeys (contexts.filter (fun entry => entry.1 ≠ c)) =
      (contextKeys contexts).filter (fun d => d ≠ c) := by
  simp only [contextKeys, List.filter_map]
  rfl

section

variable {κ β : Type} [BEq κ] [LawfulBEq κ] [DecidableEq κ] {entries : List (κ × β)} {k l : κ}

theorem lookup_filter_self : (entries.filter (fun entry => entry.1 ≠ k)).lookup k = none := by
  rw [List.lookup_eq_none_iff]
  intro entry hentry
  have hne : entry.1 ≠ k := of_decide_eq_true (List.mem_filter.mp hentry).2
  simpa using hne.symm

/-- Without the entries of one key, all others are found as before. -/
theorem lookup_filter_of_ne (hl : l ≠ k) :
    (entries.filter (fun entry => entry.1 ≠ k)).lookup l = entries.lookup l := by
  induction entries with
  | nil => rfl
  | cons entry rest ih =>
      rcases entry with ⟨e, value⟩
      by_cases he : e = k
      · subst he
        have hne : (l == e) = false := by simpa using hl
        rw [List.lookup_cons, hne, List.filter_cons_of_neg (by simp), ih]
      · rw [List.filter_cons_of_pos (by simpa using he), List.lookup_cons, List.lookup_cons, ih]

end

theorem count_filter_ne (hkeys : (contextKeys contexts).Nodup) (h : contexts.lookup c = some old) :
    ((contexts.filter (fun entry => entry.1 ≠ c)).flatMap f).count x + (f (c, old)).count x =
      (contexts.flatMap f).count x := by
  induction contexts with
  | nil => cases h
  | cons entry rest ih =>
      rcases entry with ⟨d, there⟩
      rcases List.nodup_cons.mp hkeys with ⟨hfirst, hrestKeys⟩
      by_cases hd : d = c
      · subst hd
        rw [List.lookup_cons_self, Option.some.injEq] at h
        subst h
        have hrest : rest.filter (fun entry => entry.1 ≠ d) = rest := by
          rw [List.filter_eq_self]
          intro entry he
          rcases entry with ⟨e, other⟩
          have hne : e ≠ d := by
            intro heq
            subst heq
            exact hfirst (List.mem_map.mpr ⟨_, he, rfl⟩)
          simpa using hne
        rw [List.filter_cons_of_neg (by simp), hrest]
        simp only [List.flatMap_cons, List.count_append]
        omega
      · have hne : (c == d) = false := by simpa using Ne.symm hd
        rw [List.lookup_cons, hne] at h
        have hrest := ih hrestKeys h
        rw [List.filter_cons_of_pos (by simpa using hd)]
        simp only [List.flatMap_cons, List.count_append]
        omega

end Fibers
