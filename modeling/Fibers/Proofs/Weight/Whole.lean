import Fibers.Proofs.Stacks
import Fibers.Proofs.Weight.Step

/-!
# Whole states get lighter

A switch parks the stack that it leaves with as much weight as it has, and takes up another.  So the
weight of a whole state falls by what the step has paid for.
-/

namespace Fibers

/-! ## The list of contexts -/

section Contexts

variable {contexts : List (ContextId × List Frame)} {c : ContextId} {old : List Frame}

theorem contextsWeight_replaceStack (stack : List Frame) (h : contexts.lookup c = some old) :
    contextsWeight (replaceStack c stack contexts) + stackWeight old =
      contextsWeight contexts + stackWeight stack := by
  induction contexts with
  | nil => cases h
  | cons entry rest ih =>
      rcases entry with ⟨d, there⟩
      by_cases hd : d = c
      · subst hd
        rw [List.lookup_cons_self, Option.some.injEq] at h
        subst h
        simp only [replaceStack, if_true, contextsWeight_cons]
        omega
      · have hne : (c == d) = false := by simpa using Ne.symm hd
        rw [List.lookup_cons, hne] at h
        have hrest := ih h
        simp only [replaceStack, hd, if_false, contextsWeight_cons]
        omega

theorem contextsWeight_filter_le (c : ContextId) (contexts : List (ContextId × List Frame)) :
    contextsWeight (contexts.filter (fun entry => entry.1 ≠ c)) ≤ contextsWeight contexts := by
  induction contexts with
  | nil => exact Nat.le_refl 0
  | cons entry rest ih =>
      rcases entry with ⟨d, there⟩
      by_cases hd : d = c
      · rw [List.filter_cons_of_neg (by simpa using hd), contextsWeight_cons]
        omega
      · rw [List.filter_cons_of_pos (by simpa using hd), contextsWeight_cons, contextsWeight_cons]
        omega

theorem contextsWeight_filter (h : contexts.lookup c = some old) :
    contextsWeight (contexts.filter (fun entry => entry.1 ≠ c)) + stackWeight old ≤
      contextsWeight contexts := by
  induction contexts with
  | nil => cases h
  | cons entry rest ih =>
      rcases entry with ⟨d, there⟩
      by_cases hd : d = c
      · subst hd
        rw [List.lookup_cons_self, Option.some.injEq] at h
        subst h
        have hrest := contextsWeight_filter_le d rest
        rw [List.filter_cons_of_neg (by simp), contextsWeight_cons]
        omega
      · have hne : (c == d) = false := by simpa using Ne.symm hd
        rw [List.lookup_cons, hne] at h
        have hrest := ih h
        rw [List.filter_cons_of_pos (by simpa using hd), contextsWeight_cons, contextsWeight_cons]
        omega

end Contexts

namespace State

variable {s s' : State} {lost : List ContextId} {rounds : Nat}

theorem weight_eq (rounds : Nat) (s : State) :
    s.weight rounds = s.atHand rounds + contextsWeight s.contexts := by
  simp only [weight, atHand]
  omega

theorem weight_go {w : World} {stack : List Frame} (hafford : s.Affords rounds w stack 0)
    (hstep : s.go w stack = .active s') : s'.weight rounds + 1 ≤ s.weight rounds := by
  cases hstep
  rw [weight_eq rounds s]
  simp only [Affords, weight, Control.weight] at hafford ⊢
  omega

theorem weight_hop {there : List Frame} {target : ContextId} (rounds : Nat) (w : World)
    (stack there' : List Frame) (signal : Signal) (hlisted : s.parked? s.running = some [])
    (hthere : s.parked? target = some there) (hne : target ≠ s.running) :
    (s.hop w stack target there' signal).weight rounds + stackWeight there =
      w.weight rounds + stackWeight stack + signal.weight + contextsWeight s.contexts +
        stackWeight there' := by
  have hfrom := contextsWeight_replaceStack stack hlisted
  have hto := contextsWeight_replaceStack [] (lookup_hop stack hthere hne)
  simp only [weight, hop, Control.weight, stackWeight_nil] at hfrom hto ⊢
  omega

/-- The context that a switch lands in brings its own weight. -/
theorem weight_transfer {w : World} {stack : List Frame} {target : ContextId} {signal : Signal}
    (hlisted : s.parked? s.running = some []) (hafford : s.Affords rounds w stack signal.weight)
    (hstep : s.transfer w stack target signal = .active s') :
    s'.weight rounds + 1 ≤ s.weight rounds := by
  rcases transfer_eq_active hstep with ⟨there, hthere, hnil, rfl⟩
  have hne : target ≠ s.running := by
    intro heq
    rw [heq, hlisted] at hthere
    cases hthere
    exact hnil rfl
  have hhop := weight_hop rounds w stack there signal hlisted hthere hne
  rw [weight_eq rounds s]
  simp only [Affords] at hafford
  omega

/-- A round begins, which goes through all shared slots. -/
def BeginsRound (s s' : State) (left : Nat) : Prop :=
  exists panic below, s.control = .run ∧ s.stack = .root (.draining (left + 1) [] true panic) :: below ∧
    s' = { s with stack := .root (.draining left s.world.globalNames false panic) :: below }

/-- A round is paid for by its being one less that can still begin. -/
theorem weight_beginsRound {left : Nat} (h : s.BeginsRound s' left) :
    s'.weight left + 1 ≤ s.weight (left + 1) := by
  rcases h with ⟨panic, below, hcontrol, hstack, rfl⟩
  have hglobals := globalsWeight_succ left s.world.globals
  simp only [weight, World.weight, hstack, stackWeight_cons, Frame.weight, RootStage.weight,
    length_globalNames, List.length_nil]
  omega

/-- Each step makes a state lighter, but for one that begins a round. -/
theorem Sound.lighter (h : s.Sound lost) (hrounds : rounds ≤ 100) (hstep : s.step = .active s') :
    s'.weight rounds + 1 ≤ s.weight rounds ∨ exists left, s.BeginsRound s' left := by
  have hspends := spends_step hrounds h.stands
  generalize hnext : s.step = next at hspends
  have hsame := hnext.symm.trans hstep
  cases hspends with
  | go hspine hafford | stage hold hnew hafford | back hcontrol hmessage hstack hspine hafford
  | settle hold hnew hleft hafford => exact Or.inl (weight_go hafford hsame)
  | depart hswitch hspine hafford | probe hprobes hspine hafford
  | abandon hcontrol hstack hspine hafford | exit hstack hafford | start hcontrol hstack hafford =>
      exact Or.inl (weight_transfer h.listed hafford hsame)
  | launch hop hspine hafford =>
      left
      have hnew := h.new_of_launch hnext hstep
      have hlighter := weight_transfer (listed_grown h.listed hnew) hafford hsame
      simpa only [weight, grown, contextsWeight_cons, stackWeight_cons, stackWeight_nil,
        Frame.weight, FiberStage.weight, Nat.zero_add] using hlighter
  | lift hcontrol hmessage hspine hafford =>
      left
      cases hsame
      rw [weight_eq rounds s]
      simp only [Affords, weight, Control.weight] at hafford ⊢
      omega
  | answer hcontrol =>
      left
      rcases h.answer hcontrol with ⟨query, reply, purpose, a, below, hprober, hmove, -⟩
      cases hmove.symm.trans hsame
      have hne := h.ne_running hprober (show needOf _ = some .reply from rfl)
      have hhop := weight_hop rounds s.world s.stack
        (.calling (.probe query (some reply) purpose) a :: below) (.message .handover) h.listed
        hprober hne
      rw [weight_eq rounds s]
      simp only [atHand, stackWeight_cons, Frame.weight, Call.weight, Signal.weight] at hhop ⊢
      omega
  | call hcontrol =>
      left
      rcases h.call hcontrol with ⟨host, f, target, a, below, hsource, hmove, -⟩
      cases hmove.symm.trans hsame
      have hcontexts := contextsWeight_replaceStack
        (.calling (.resume host none target) a :: below) hsource
      simp only [weight, topped, stackWeight_cons, Frame.weight, Call.weight, leftoverWeight,
        Option.elim_some, Option.elim_none, Closure.weight, Closure.activation, Activation.weight,
        blocksWeight_cons, blocksWeight_nil, Block.weight, BlockKind.weight, entriesWeight_cons,
        Entry.weight, Flow.weight, Handle.weight_live, Control.weight] at hcontexts ⊢
      omega
  | release hcontrol =>
      left
      rename_i source
      rcases h.release hcontrol with ⟨lease, after, hsource, hmove, hr, -⟩
      cases hmove.symm.trans hsame
      have hcontexts := contextsWeight_filter hsource
      simp only [weight, World.weight, hr.globals, hr.stack, hr.contexts, hr.control,
        Control.weight, Signal.weight, stackWeight_cons, Frame.weight, FiberStage.weight,
        hcontrol] at hcontexts ⊢
      omega
  | round hcontrol hstack =>
      right
      cases hsame
      rename_i left panic below
      refine ⟨left, panic, below, hcontrol, hstack, ?_⟩
      rw [hcontrol]
  | halt => cases hsame

end State

end Fibers
