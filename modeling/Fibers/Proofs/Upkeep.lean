import Fibers.Proofs.Moves

/-!
# What moves keep up

Two facts about a program hold in all states of its run: its code obeys the discipline that it did
at the start, and the shared slots are kept in order.
-/

namespace Fibers

theorem Discipline.not_allowsKind_lossless : lossless.allowsKind (.attempt true) = false := rfl

namespace State

variable {s s' : State} {lost : List ContextId} {need : Need} {d : Discipline}

/-! ## Code -/

theorem obeys_hop {w : World} {stack there : List Frame} {target : ContextId} {signal : Signal}
    (h : s.Obeys d) (hstack : d.allowsStack stack = true) (hthere : d.allowsStack there = true)
    (hsignal : d.allowsControl (.landed s.running signal) = true) :
    (s.hop w stack target there signal).Obeys d := by
  refine ⟨⟨hthere, hsignal⟩, ?_⟩
  intro c stack' hmem
  rcases eq_or_mem_of_mem_replaceStack hmem with heq | hmem
  · rw [show stack' = [] from heq]
    rfl
  · rcases eq_or_mem_of_mem_replaceStack hmem with heq | hmem
    · rw [show stack' = stack from heq]
      exact hstack
    · exact h.2 c stack' hmem

theorem Move.obeys (hsound : s.Sound lost) (hm : s.Move s') (h : s.Obeys d) : s'.Obeys d := by
  cases hm with
  | stay ht =>
      refine ⟨ht.obeys d h.1, ?_⟩
      rw [ht.contexts]
      exact h.2
  | switch need hd hthere hneed =>
      have hne := hsound.ne_running hthere hneed
      apply obeys_hop h (hd.obeys d h.1) (h.2 _ _ (mem_of_lookup hthere))
      have hnot := hd.not_start hneed (hsound.parked _ _ hne hthere).1
      unfold Discipline.allowsControl
      split
      · rename_i heq
        cases heq
        exact absurd rfl (hnot _)
      · rfl
  | answer reply hcontrol hprober =>
      rename_i prober query purpose a below
      have hwaiting := h.2 _ _ (mem_of_lookup hprober)
      have hthere : d.allowsStack (.calling (.probe query (some reply) purpose) a :: below) = true := by
        cases purpose <;> exact hwaiting
      exact obeys_hop h h.1.1 hthere rfl
  | launch hl hnew =>
      rename_i w stack fiber record
      have hgrown : (s.grown fiber).Obeys d := by
        refine ⟨h.1, ?_⟩
        intro c stack' hmem
        rcases List.mem_cons.mp hmem with heq | hmem
        · cases heq
          rfl
        · exact h.2 c stack' hmem
      apply obeys_hop hgrown (hl.obeys d h.1) rfl
      simpa [Discipline.allowsControl] using hl.obeysBody d h.1
  | call hcontrol hsource =>
      rename_i source host f target a below
      have hwaiting := h.2 _ _ (mem_of_lookup hsource)
      simp only [Discipline.allowsStack, List.all_cons, Discipline.allowsFrame,
        Discipline.allowsCall, Discipline.allowsClosure, Option.toList_some, List.all_nil,
        Bool.and_true, Bool.and_eq_true] at hwaiting
      rcases hwaiting with ⟨⟨⟨hcaptured, hcode⟩, ha⟩, hbelow⟩
      refine ⟨⟨?_, rfl⟩, ?_⟩
      · have hstack := h.1.1
        simp only [topped, Discipline.allowsStack, List.all_cons, Discipline.allowsFrame,
          Closure.activation, Discipline.allowsCode, Discipline.allowsBlock, Discipline.allowsKind,
          Discipline.allowsEntry, List.all_nil, Bool.true_and, Bool.and_true,
          Bool.and_eq_true] at hstack ⊢
        exact ⟨⟨hcode, hcaptured⟩, hstack⟩
      · intro c stack hmem
        rcases eq_or_mem_of_mem_replaceStack hmem with heq | hmem
        · rw [show stack = .calling (.resume host none target) a :: below from heq]
          simp only [Discipline.allowsStack, List.all_cons, Discipline.allowsFrame,
            Discipline.allowsCall, Option.toList_none, List.all_nil, Bool.true_and,
            Bool.and_eq_true]
          exact ⟨ha, hbelow⟩
        · exact h.2 c stack hmem
  | release hcontrol hsource hr =>
      refine ⟨⟨?_, ?_⟩, ?_⟩
      · rw [hr.stack]
        exact h.1.1
      · rw [hr.control]
        rfl
      · intro c stack hmem
        rw [hr.contexts] at hmem
        exact h.2 c stack (List.mem_filter.mp hmem).1

/-- Where no block discards forced unwinds, none is discarded. -/
theorem Obeys.swallows (h : s.Obeys .lossless) : s.swallows = [] := by
  have hstack := h.1.1
  unfold State.swallows
  split
  · rename_i requester a below _ heq
    split
    · rename_i hblocks
      simp [heq, Discipline.allowsStack, Discipline.allowsFrame, Discipline.allowsCode, hblocks,
        Discipline.allowsBlock, Discipline.not_allowsKind_lossless] at hstack
    · rfl
  · rfl

/-! ## Shared slots -/

theorem Move.tidy (hm : s.Move s') (h : Tidy s.world s.stack) : Tidy s'.world s'.stack := by
  cases hm with
  | stay ht => exact ht.tidy h
  | switch need hd hthere hneed => exact .of_needOf (hd.once h.1) hneed
  | answer reply hcontrol hprober => exact ⟨h.1, trivial⟩
  | launch hl hnew => exact ⟨hl.once h.1, trivial⟩
  | call hcontrol hsource => exact ⟨h.1, trivial⟩
  | release hcontrol hsource hr =>
      rw [hr.stack]
      exact h.of_globals hr.globals

end State

/-! ## Whole runs -/

namespace Program.Reaches

variable {p : Program} {past : List State} {s : State} {d : Discipline}

theorem obeys (h : p.Reaches past s) (hmain : d.allowsAll p.main = true) : s.Obeys d := by
  induction h with
  | start =>
      refine ⟨⟨?_, rfl⟩, ?_⟩
      · simp [Program.start, Activation.ofCode, Discipline.allowsStack, Discipline.allowsFrame,
          Discipline.allowsCode, Discipline.allowsBlock, Discipline.allowsKind, hmain]
      · intro c stack hmem
        rcases List.mem_singleton.mp hmem with ⟨⟩
        rfl
  | step hbefore hstep ih => exact (hbefore.sound.move hstep).1.obeys hbefore.sound ih

theorem lostIn_eq_nil (h : p.Reaches past s) (hmain : Discipline.lossless.allowsAll p.main = true) :
    lostIn past = [] := by
  induction h with
  | start => rfl
  | step hbefore hstep ih =>
      rw [lostIn, List.flatMap_cons, (hbefore.obeys hmain).swallows]
      exact ih

theorem tidy (h : p.Reaches past s) : Tidy s.world s.stack := by
  induction h with
  | start => exact ⟨List.nodup_nil, trivial⟩
  | step hbefore hstep ih => exact (hbefore.sound.move hstep).1.tidy ih

end Program.Reaches

end Fibers
