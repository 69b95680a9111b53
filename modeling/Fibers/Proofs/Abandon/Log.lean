import Fibers.Proofs.Contexts
import Fibers.Proofs.Layout
import Mathlib.Logic.Relation

/-!
# What an abandoned fiber leaves in the log

A fiber that is abandoned closes what is open on its stack, the innermost first, and drops what is
declared there, the last entry first.  A handle among that abandons another fiber in turn.  In the
end the stack is given back.  Here the log of all this is read off the parked stacks, by recursion
on the contexts that have not been looked at yet.
-/

namespace Fibers

open Relation (ReflTransGen TransGen)

/-! ## One stack

What abandoning a fiber logs is a parameter as long as only one stack is looked at.
-/

section Stack

variable (abandon : ContextId -> List LogEntry)

def Entry.dropLog : Entry -> List LogEntry
  | .slot _ (.live fiber) => abandon fiber
  | .slot _ .empty => []
  | .guard label _ => [.dropped label .fiber]

def dropLog (entries : List Entry) : List LogEntry := entries.flatMap (Entry.dropLog abandon)

/-- Blocks that attempt their code let forced unwinds pass. -/
def BlockKind.unwindLog (label : String) : BlockKind -> List LogEntry
  | attempt _ => [.noted label .rethrown]
  | _ => []

def Block.unwindLog (label : String) (b : Block) : List LogEntry :=
  dropLog abandon b.entries ++ b.kind.unwindLog label

def Activation.unwindLog (a : Activation) : List LogEntry :=
  a.blocks.flatMap (Block.unwindLog abandon a.label)

def Frame.unwindLog : Frame -> List LogEntry
  | .code a | .calling _ a => a.unwindLog abandon
  | .base (.idle record) => dropLog abandon (Closure.leftover record.body)
  | _ => []

def unwindLog (stack : List Frame) : List LogEntry := stack.flatMap (Frame.unwindLog abandon)

end Stack

/-- The log of giving a stack back to an allocator of the program's own. -/
def Lease.returnLog (k : StackKind) (l : Lease) : List LogEntry :=
  l.owner.toList.map (LogEntry.deallocated · k)

def returnLog (k : StackKind) (stack : List Frame) : List LogEntry :=
  (leaseOf stack).toList.flatMap (Lease.returnLog k)

/-! ## All stacks -/

/-- The log of abandoning a fiber from a stack of the given kind. -/
def abandonLog (contexts : List (ContextId × List Frame)) (k : StackKind) (fiber : ContextId) :
    List LogEntry :=
  match _ : contexts.lookup fiber with
  | none => []
  | some stack =>
      unwindLog (abandonLog (contexts.filter (fun entry => entry.1 ≠ fiber)) .fiber) stack ++
        returnLog k stack
termination_by contexts.length
decreasing_by
  simp only [List.unattach, List.length_map]
  apply Nat.lt_of_lt_of_eq _ List.length_attach
  apply List.length_filter_lt_length_iff_exists.mpr
  exact ⟨⟨_, mem_of_lookup ‹_›⟩, List.mem_attach _ _, by simp⟩

theorem abandonLog_of_lookup {contexts : List (ContextId × List Frame)} {k : StackKind}
    {fiber : ContextId} {stack : List Frame} (h : contexts.lookup fiber = some stack) :
    abandonLog contexts k fiber =
      unwindLog (abandonLog (contexts.filter (fun entry => entry.1 ≠ fiber)) .fiber) stack ++
        returnLog k stack := by
  rw [abandonLog]
  split
  · rename_i hnone
    rw [h] at hnone
    cases hnone
  · rename_i stack' hsome
    rw [h, Option.some.injEq] at hsome
    rw [hsome]

theorem abandonLog_of_none {contexts : List (ContextId × List Frame)} {k : StackKind}
    {fiber : ContextId} (h : contexts.lookup fiber = none) : abandonLog contexts k fiber = [] := by
  rw [abandonLog]
  split
  · rfl
  · rename_i stack hsome
    rw [h] at hsome
    cases hsome

/-! ## What the log depends on -/

section Congruence

variable {f g : ContextId -> List LogEntry}

theorem dropLog_congr {entries : List Entry}
    (h : forall c, .token .handle c ∈ entryHoldings entries -> f c = g c) :
    dropLog f entries = dropLog g entries := by
  induction entries with
  | nil => rfl
  | cons e rest ih =>
      have hrest : dropLog f rest = dropLog g rest :=
        ih fun c hc => h c (List.mem_append_right _ hc)
      have hfirst : e.dropLog f = e.dropLog g := by
        cases e with
        | guard label onDrop => rfl
        | slot name k =>
            cases k with
            | empty => rfl
            | live c => exact h c (List.mem_append_left _ (List.mem_singleton.mpr rfl))
      simp only [dropLog, List.flatMap_cons] at hrest ⊢
      rw [hfirst, hrest]

theorem Activation.unwindLog_congr {a : Activation}
    (h : forall c, .token .handle c ∈ a.holdings -> f c = g c) :
    a.unwindLog f = a.unwindLog g := by
  have hblock : forall b, b ∈ a.blocks -> b.unwindLog f a.label = b.unwindLog g a.label := by
    intro b hb
    rw [Block.unwindLog, Block.unwindLog, dropLog_congr]
    intro c hc
    exact h c (List.mem_append_right _ (List.mem_flatMap.mpr ⟨b, hb, hc⟩))
  simp only [Activation.unwindLog, List.flatMap_def, List.map_congr_left hblock]

theorem unwindLog_congr {stack : List Frame}
    (h : forall c, .token .handle c ∈ stackHoldings stack -> f c = g c) :
    unwindLog f stack = unwindLog g stack := by
  rw [unwindLog, unwindLog, List.flatMap_def, List.flatMap_def, List.map_congr_left]
  intro frame hframe
  have hall : forall c, .token .handle c ∈ frame.holdings -> f c = g c :=
    fun c hc => h c (List.mem_flatMap.mpr ⟨frame, hframe, hc⟩)
  cases frame with
  | code a => exact Activation.unwindLog_congr hall
  | calling call a =>
      exact Activation.unwindLog_congr fun c hc => hall c (List.mem_append_right _ hc)
  | base stage =>
      cases stage with
      | idle record => exact dropLog_congr hall
      | unborn | busy lease | leaving lease ending | exited lease => rfl
  | discarding entries cause | dropping | onTop source | root stage => rfl

end Congruence

/-- A parked context has the handle of another. -/
def HoldsIn (contexts : List (ContextId × List Frame)) (c d : ContextId) : Prop :=
  exists stack, contexts.lookup c = some stack ∧ .token .handle d ∈ stackHoldings stack

section Without

variable {contexts contexts' : List (ContextId × List Frame)} {c d fiber : ContextId}

theorem HoldsIn.of_filter
    (h : HoldsIn (contexts.filter (fun entry => entry.1 ≠ fiber)) c d) : HoldsIn contexts c d := by
  rcases h with ⟨stack, hstack, hmem⟩
  by_cases hc : c = fiber
  · rw [hc, lookup_filter_self] at hstack
    cases hstack
  · rw [lookup_filter_of_ne hc] at hstack
    exact ⟨stack, hstack, hmem⟩

theorem reflTransGen_of_filter
    (h : ReflTransGen (HoldsIn (contexts.filter (fun entry => entry.1 ≠ fiber))) c d) :
    ReflTransGen (HoldsIn contexts) c d :=
  ReflTransGen.mono (fun _ _ => HoldsIn.of_filter) c d h

theorem length_filter_lt {stack : List Frame} (h : contexts.lookup fiber = some stack) :
    (contexts.filter (fun entry => entry.1 ≠ fiber)).length < contexts.length := by
  apply List.length_filter_lt_length_iff_exists.mpr
  exact ⟨_, mem_of_lookup h, by simp⟩

/-- The log depends on the stacks only that can be reached from the fiber. -/
theorem abandonLog_congr (k : StackKind)
    (h : forall d, ReflTransGen (HoldsIn contexts) fiber d ->
      contexts'.lookup d = contexts.lookup d) :
    abandonLog contexts' k fiber = abandonLog contexts k fiber := by
  induction hlength : contexts.length using Nat.strongRecOn
    generalizing contexts contexts' fiber k with
  | _ n ih =>
      have hfiber := h fiber .refl
      cases hlookup : contexts.lookup fiber with
      | none => rw [abandonLog_of_none hlookup, abandonLog_of_none (hfiber.trans hlookup)]
      | some stack =>
          rw [abandonLog_of_lookup hlookup, abandonLog_of_lookup (hfiber.trans hlookup)]
          congr 1
          apply unwindLog_congr
          intro c hc
          refine ih _ ?_ .fiber ?_ rfl
          · rw [<- hlength]
            exact length_filter_lt hlookup
          · intro d hd
            by_cases hdf : d = fiber
            · rw [hdf, lookup_filter_self, lookup_filter_self]
            · rw [lookup_filter_of_ne hdf, lookup_filter_of_ne hdf]
              exact h d ((reflTransGen_of_filter hd).head ⟨stack, hlookup, hc⟩)

/-- Where a fiber does not own itself, it need not be taken out of the list. -/
theorem abandonLog_eq (k : StackKind) {stack : List Frame}
    (hlookup : contexts.lookup fiber = some stack)
    (hacyclic : ¬ TransGen (HoldsIn contexts) fiber fiber) :
    abandonLog contexts k fiber =
      unwindLog (abandonLog contexts .fiber) stack ++ returnLog k stack := by
  rw [abandonLog_of_lookup hlookup]
  congr 1
  apply unwindLog_congr
  intro c hc
  apply abandonLog_congr
  intro d hd
  apply lookup_filter_of_ne
  intro heq
  subst heq
  exact hacyclic (TransGen.head' ⟨stack, hlookup, hc⟩ hd)

end Without

end Fibers
