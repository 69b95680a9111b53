import Fibers.Proofs.Closures.Step

/-!
# Closures are used once

In a run each keeper uses the closures that it is handed one after another, each of them once, and a
fiber is handed one only.
-/

namespace Fibers

/-! ## Books of closures -/

/-- What an event that has to do with a closure has to do with those of a keeper. -/
def closuresOf (k : Keeper) : Option (Keeper × Closure) -> List Closure
  | some (k', f) => if k' = k then [f] else []
  | none => []

theorem closuresOf_self (k : Keeper) (f : Closure) : closuresOf k (some (k, f)) = [f] := if_pos rfl

theorem closuresOf_eq_nil {k : Keeper} {x : Option (Keeper × Closure)}
    (h : forall f, x ≠ some (k, f)) : closuresOf k x = [] := by
  cases x with
  | none => rfl
  | some entry =>
      rcases entry with ⟨k', f⟩
      refine if_neg fun heq => h f ?_
      rw [heq]

theorem mem_closuresOf {k : Keeper} {f : Closure} {x : Option (Keeper × Closure)} :
    f ∈ closuresOf k x ↔ x = some (k, f) := by
  constructor
  · intro hmem
    unfold closuresOf at hmem
    split at hmem
    · rename_i k' f'
      split at hmem
      · rename_i hk
        rw [List.mem_singleton.mp hmem, hk]
      · cases hmem
    · cases hmem
  · rintro rfl
    rw [closuresOf_self]
    exact List.mem_singleton_self f

/-- The closures that a keeper was handed in the given states, the latest first. -/
def handedTo (k : Keeper) (past : List State) : List Closure :=
  past.flatMap fun t => closuresOf k t.given?

/-- The closures that a keeper has used in the given states, the latest first. -/
def usedBy (k : Keeper) (past : List State) : List Closure :=
  past.flatMap fun t => closuresOf k t.used?

namespace State

variable {s s' : State} {lost : List ContextId} {k : Keeper} {f : Closure} {past since : List State}

theorem handedTo_cons (hgives : forall f, ¬ s.Gives k f) :
    handedTo k (s :: past) = handedTo k past := by
  have hgiven : closuresOf k s.given? = [] := closuresOf_eq_nil fun f hf => hgives f (.of_given? hf)
  rw [handedTo, List.flatMap_cons, hgiven]
  rfl

theorem Sound.usedBy_cons (h : s.Sound lost) (huses : forall f, ¬ s.Uses k f) :
    usedBy k (s :: past) = usedBy k past := by
  have hused : closuresOf k s.used? = [] := closuresOf_eq_nil fun f hf => huses f (h.uses_iff.mp hf)
  rw [usedBy, List.flatMap_cons, hused]
  rfl

/-- A step balances the books of each keeper. -/
theorem Sound.kept_step (h : s.Sound lost) (hstep : s.step = .active s') (k : Keeper) :
    (s'.kept k).toList ++ closuresOf k s.used? = closuresOf k s.given? ++ (s.kept k).toList := by
  by_cases hgives : exists f, s.Gives k f
  · rcases hgives with ⟨f, hgives⟩
    have hnone : forall g, s.used? ≠ some (k, g) := by
      intro g hused
      rcases (h.uses_iff.mp hused).landed with ⟨source, signal, hcontrol⟩
      rw [hgives.run] at hcontrol
      cases hcontrol
    rcases h.kept_of_gives hstep hgives with ⟨hbefore, hafter⟩
    rw [hbefore, hafter, hgives.given?, closuresOf_self, closuresOf_eq_nil hnone]
    rfl
  · have hgiven : forall g, s.given? ≠ some (k, g) := fun g hg => hgives ⟨g, .of_given? hg⟩
    rw [closuresOf_eq_nil hgiven, List.nil_append]
    by_cases huses : exists f, s.Uses k f
    · rcases huses with ⟨f, huses⟩
      rcases h.kept_of_uses hstep huses with ⟨hbefore, hafter⟩
      rw [hbefore, hafter, h.uses_iff.mpr huses, closuresOf_self]
      rfl
    · have hused : forall g, s.used? ≠ some (k, g) := fun g hg => huses ⟨g, h.uses_iff.mp hg⟩
      have hkept := h.kept_of_not hstep (fun g hg => hgives ⟨g, hg⟩) fun g hg => huses ⟨g, hg⟩
      rw [closuresOf_eq_nil hused, hkept, List.append_nil]

/-- Books that are in order stay so. -/
theorem Sound.ledger_step (h : s.Sound lost) (hstep : s.step = .active s')
    (hledger : handedTo k past = (s.kept k).toList ++ usedBy k past) :
    handedTo k (s :: past) = (s'.kept k).toList ++ usedBy k (s :: past) := by
  have hbalance := h.kept_step hstep k
  calc handedTo k (s :: past)
    _ = closuresOf k s.given? ++ handedTo k past := rfl
    _ = (closuresOf k s.given? ++ (s.kept k).toList) ++ usedBy k past := by
      rw [hledger, List.append_assoc]
    _ = ((s'.kept k).toList ++ closuresOf k s.used?) ++ usedBy k past := by rw [hbalance]
    _ = (s'.kept k).toList ++ usedBy k (s :: past) := List.append_assoc ..

/-! ## One closure -/

/-- What has become of a closure in the states since a keeper was handed it, the latest first. -/
inductive Fate (s : State) (k : Keeper) (f : Closure) (since : List State) : Prop where
  /-- The keeper still has it. -/
  | kept : s.kept k = some f -> usedBy k since = [] -> Fate s k f since
  /-- It was used, and only once: what was used later on had been handed to the keeper later on. -/
  | used {after during : List State} {t : State} :
      since = after ++ t :: during -> t.Uses k f -> usedBy k during = [] ->
        handedTo k after = (s.kept k).toList ++ usedBy k after -> Fate s k f since

theorem Sound.fate_step (h : s.Sound lost) (hstep : s.step = .active s') (hfate : s.Fate k f since) :
    s'.Fate k f (s :: since) := by
  cases hfate with
  | kept hkept hunused =>
      by_cases huses : s.Uses k f
      · have hgone := (h.kept_of_uses hstep huses).2
        have hnothing : handedTo k [] = (s'.kept k).toList ++ usedBy k [] := by
          rw [hgone]
          rfl
        exact .used (List.nil_append _).symm huses hunused hnothing
      · have hnone : forall g, ¬ s.Uses k g := by
          intro g hg
          cases (h.kept_of_uses hstep hg).1.symm.trans hkept
          exact huses hg
        have hgives : forall g, ¬ s.Gives k g := by
          intro g hg
          cases (h.kept_of_gives hstep hg).1.symm.trans hkept
        constructor
        · exact (h.kept_of_not hstep hgives hnone).trans hkept
        · exact (h.usedBy_cons hnone).trans hunused
  | used hsince huses hunused hledger =>
      rw [hsince]
      exact .used (List.cons_append ..).symm huses hunused (h.ledger_step hstep hledger)

/-- What is handed out has captured nothing that runs code. -/
theorem Gives.plain (h : s.Gives k f) : f.captured.all Entry.isPlain = true := by
  cases h with
  | fiber hop hstack hcapture hhome =>
      rename_i spec captures moves body a below scene c
      have hplain := (Scene.mk s.world a.advance).capture_plain spec.label (.own "caller") captures
        moves body
      rwa [hcapture] at hplain
  | sender hop hstack hmade htaken =>
      rename_i switch spec a below c scene
      have hplain := (Scene.mk s.world a.advance).plain_make (some spec)
      rwa [hmade] at hplain

/-! ## Nobody's closures -/

/-- Nobody has a closure if nobody but the running context is there, and has none itself. -/
theorem kept_eq_none (hothers : forall c, c ≠ s.running -> s.parked? c = none)
    (hbody : s.body? = none) (hfunction : functionOf s.stack = none) (k : Keeper) :
    s.kept k = none := by
  cases k with
  | fiber c =>
      rw [kept]
      split
      · exact hbody
      · rename_i hc
        rw [hothers c hc]
        rfl
  | sender c =>
      rw [kept, stackOf]
      split
      · exact hfunction
      · rename_i hc
        rw [hothers c hc]
        rfl

/-- The fiber that gets a body has a number that was not given out before the step. -/
theorem Sound.fresh_of_gives {c : ContextId} (h : s.Sound lost) (hstep : s.step = .active s')
    (hgives : s.Gives (.fiber c) f) : s.world.memory.next ≤ c ∧ c < s'.world.memory.next := by
  cases hgives with
  | fiber hop hstack hcapture hhome =>
      rcases step_create hop hstack with ⟨f', scene, -, hcreates⟩
      rw [hhome] at hcreates
      rcases hcreates with ⟨w, record, hbody, hmove⟩
      refine ⟨Nat.le_of_eq (FiberSpec.home_eq hhome).symm, ?_⟩
      have hafter := (h.move hstep).2
      rcases transfer_eq_active (hmove.symm.trans hstep) with ⟨there, -, -, rfl⟩
      exact hafter.lt_next (mem_contextKeys.mpr ⟨[], hafter.listed⟩)

end State

/-! ## Whole runs -/

namespace Program.Reaches

variable {p : Program} {past later before : List State} {s t : State} {k : Keeper} {f : Closure}
  {c : ContextId}

/-- A keeper has used what it was handed, except for what it still has. -/
theorem closures (h : p.Reaches past s) (k : Keeper) :
    handedTo k past = (s.kept k).toList ++ usedBy k past := by
  induction h with
  | start =>
      have hothers : forall c, c ≠ p.start.running -> p.start.parked? c = none := by
        intro c hc
        have hmain : c ≠ mainContext := hc
        have hne : (c == mainContext) = false := by simpa using hmain
        simp [State.parked?, Program.start, List.lookup_cons, hne]
      rw [State.kept_eq_none hothers rfl rfl]
      rfl
  | step hbefore hstep ih => exact hbefore.sound.ledger_step hstep ih

theorem length_usedBy_le (h : p.Reaches past s) (k : Keeper) :
    (usedBy k past).length ≤ (handedTo k past).length := by
  rw [h.closures, List.length_append]
  exact Nat.le_add_left _ _

/-- A closure that is handed to a keeper is used at most once. -/
theorem fate (h : p.Reaches past s) (hrun : past = later ++ t :: before) (hgives : t.Gives k f) :
    s.Fate k f later := by
  induction later generalizing past s with
  | nil =>
      subst hrun
      rcases h.step_of_adjacent with ⟨hbefore, hstep⟩
      exact .kept (hbefore.sound.kept_of_gives hstep hgives).2 rfl
  | cons u later ih =>
      subst hrun
      rcases h.step_of_adjacent with ⟨hbefore, hstep⟩
      exact hbefore.sound.fate_step hstep (ih hbefore rfl)

/-- What is kept has been handed out, and so it has captured nothing that runs code. -/
theorem plain_of_kept (h : p.Reaches past s) (hkept : s.kept k = some f) :
    f.captured.all Entry.isPlain = true := by
  have hhanded : f ∈ handedTo k past := by
    rw [h.closures, hkept]
    exact List.mem_cons_self
  rcases List.mem_flatMap.mp hhanded with ⟨t, -, hgiven⟩
  exact (State.Gives.of_given? (mem_closuresOf.mp hgiven)).plain

/-- A fiber that was handed a body has a number that is given out. -/
theorem lt_next_of_handed (h : p.Reaches past s) (hhanded : handedTo (.fiber c) past ≠ []) :
    c < s.world.memory.next := by
  induction h with
  | start => exact absurd rfl hhanded
  | step hbefore hstep ih =>
      rename_i past s s'
      by_cases hgives : exists f, s.Gives (.fiber c) f
      · rcases hgives with ⟨f, hgives⟩
        exact (hbefore.sound.fresh_of_gives hstep hgives).2
      · rw [State.handedTo_cons fun f hf => hgives ⟨f, hf⟩] at hhanded
        exact Nat.lt_of_lt_of_le (ih hhanded) (hbefore.sound.move hstep).1.memory_le

/-- A fiber is handed one body at most. -/
theorem one_body (h : p.Reaches past s) (c : ContextId) :
    (handedTo (.fiber c) past).length ≤ 1 := by
  induction h with
  | start => exact Nat.zero_le 1
  | step hbefore hstep ih =>
      rename_i past s s'
      by_cases hgives : exists f, s.Gives (.fiber c) f
      · rcases hgives with ⟨f, hgives⟩
        have hfirst : handedTo (.fiber c) past = [] := by
          apply Classical.byContradiction
          intro hearlier
          have hold := hbefore.lt_next_of_handed hearlier
          have hnew := (hbefore.sound.fresh_of_gives hstep hgives).1
          exact absurd hold (Nat.not_lt.mpr hnew)
        have hone : handedTo (.fiber c) (s :: past) = [f] ++ handedTo (.fiber c) past := by
          rw [handedTo, List.flatMap_cons, hgives.given?, closuresOf_self]
          rfl
        rw [hone, hfirst]
        exact Nat.le_refl 1
      · rw [State.handedTo_cons fun f hf => hgives ⟨f, hf⟩]
        exact ih

end Program.Reaches

end Fibers
