import Fibers.Proofs.Abandon.Log
import Fibers.Proofs.Abandon.Sweep
import Fibers.Proofs.Boundary
import Fibers.Proofs.Forest

/-!
# Forced unwind

Whoever drops the handle of a fiber waits until the fiber is gone.  Where nothing runs code as it is
dropped, and no block discards the unwind, the steps up to there are determined: all that the fiber
owns goes with it, nobody else notices, and the log of it is the one that is read off the stacks.
-/

namespace Fibers

open Relation (ReflTransGen TransGen)

/-! ## Stacks that unwind without code being run -/

/-- What is declared here runs no code as it is dropped, and forced unwinds are let pass. -/
def Block.isMild (b : Block) : Bool :=
  b.entries.all Entry.isPlain &&
    match b.kind with
    | .attempt swallow => !swallow
    | _ => true

/-- No drop is under way here, and none that may come runs code. -/
def Frame.isMild : Frame -> Bool
  | code a | calling _ a => a.blocks.all Block.isMild
  | discarding _ _ => false
  | _ => true

/-- All that a fiber owns are fibers that unwind without code being run, itself included. -/
def MildFrom (contexts : List (ContextId × List Frame)) (fiber : ContextId) : Prop :=
  forall c, ReflTransGen (HoldsIn contexts) fiber c ->
    c ≠ mainContext ∧ forall stack, contexts.lookup c = some stack -> stack.all Frame.isMild = true

theorem MildFrom.of_filter {contexts : List (ContextId × List Frame)} {c fiber : ContextId}
    (h : MildFrom contexts c) : MildFrom (contexts.filter (fun entry => entry.1 ≠ fiber)) c := by
  intro d hd
  rcases h d (reflTransGen_of_filter hd) with ⟨hmain, hmild⟩
  refine ⟨hmain, ?_⟩
  intro stack hstack
  apply hmild
  by_cases hdf : d = fiber
  · rw [hdf, lookup_filter_self] at hstack
    cases hstack
  · rwa [lookup_filter_of_ne hdf] at hstack

namespace State

variable {s s' s'' : State} {gone gone' : ContextId -> Prop} {log log' : List LogEntry}

/-- A state that is sound up to some unwinds that were discarded. -/
def Sane (s : State) : Prop := exists lost, s.Sound lost

theorem Sane.idles (h : s.Sane) (hidles : ReflTransGen Idles s s') : s'.Sane := by
  induction hidles with
  | refl => exact h
  | tail _ hstep ih =>
      rcases ih with ⟨lost, hsound⟩
      exact ⟨_, (hsound.move hstep.1).2⟩

theorem Sane.kind (h : s.Sane) : s.kind = homeOf s.running := by
  rcases h with ⟨lost, hsound⟩
  exact hsound.kind

theorem Sane.listed (h : s.Sane) : s.parked? s.running = some [] := by
  rcases h with ⟨lost, hsound⟩
  exact hsound.listed

theorem Sane.kind_fiber (h : s.Sane) (hfiber : s.running ≠ mainContext) : s.kind = .fiber := by
  rw [h.kind, homeOf, if_neg hfiber]

/-- Whatever can be resumed is parked as it is listed. -/
def AsIn (s : State) (contexts : List (ContextId × List Frame)) : Prop :=
  forall c stack, s.parked? c = some stack -> needOf stack = some .handle ->
    contexts.lookup c = some stack

theorem AsIn.sweeps {contexts : List (ContextId × List Frame)} {waits : List Frame -> Prop}
    (h : s.AsIn contexts) (hsweeps : s.Sweeps waits gone s') : s'.AsIn contexts :=
  fun c stack hstack hneed => h c stack (hsweeps.parked? hstack) hneed

/-! ## What goes with some handles -/

/-- A context is reached from a handle among some holdings. -/
def HeldFrom (contexts : List (ContextId × List Frame)) (xs : List Holding) (d : ContextId) : Prop :=
  exists c, .token .handle c ∈ xs ∧ ReflTransGen (HoldsIn contexts) c d

/-- What goes with some holdings unwinds without code being run. -/
def MildBelow (contexts : List (ContextId × List Frame)) (xs : List Holding) : Prop :=
  forall c, .token .handle c ∈ xs -> MildFrom contexts c

section Held

variable {contexts : List (ContextId × List Frame)} {xs ys : List Holding} {d : ContextId}

theorem not_heldFrom_nil : ¬ HeldFrom contexts [] d := by
  intro hheld
  rcases hheld with ⟨c, hc, -⟩
  cases hc

theorem heldFrom_append :
    HeldFrom contexts (xs ++ ys) d ↔ HeldFrom contexts xs d ∨ HeldFrom contexts ys d := by
  simp only [HeldFrom, List.mem_append, or_and_right, exists_or]

theorem heldFrom_handle {c : ContextId} :
    HeldFrom contexts [.token .handle c] d ↔ ReflTransGen (HoldsIn contexts) c d := by
  constructor
  · intro hheld
    rcases hheld with ⟨e, he, hpath⟩
    cases List.mem_singleton.mp he
    exact hpath
  · exact fun hpath => ⟨c, List.mem_singleton.mpr rfl, hpath⟩

theorem mildBelow_append :
    MildBelow contexts (xs ++ ys) ↔ MildBelow contexts xs ∧ MildBelow contexts ys := by
  simp only [MildBelow, List.mem_append, or_imp, forall_and]

end Held

/-! ## One stack after another

All stacks are unwound alike, and the handles that are dropped on the way lead to other stacks.  So
a stack is looked at under the assumption that those which are left unwind as they should.
-/

/-- Dropping the handle of a fiber clears away what goes with it. -/
def Abandons (contexts : List (ContextId × List Frame)) : Prop :=
  forall {s : State} {fiber : ContextId} {name : SlotName} {rest : List Entry}
    {cause : Option Unwind} {below : List Frame},
    s.Sane -> s.AsIn contexts -> MildFrom contexts fiber -> s.control = .run ->
      s.stack = .discarding (.slot name (.live fiber) :: rest) cause :: below ->
      exists s', s'.control = .run ∧ s'.stack = .discarding rest cause :: below ∧
        s.Removes (WaitsIn cause) (ReflTransGen (HoldsIn contexts) fiber)
          (abandonLog contexts s.kind fiber) s'

section Stack

variable {contexts : List (ContextId × List Frame)} (hothers : Abandons contexts)

include hothers

/-! ### Entries -/

theorem Abandons.entries {entries : List Entry} {cause : Option Unwind} {below : List Frame}
    (hsane : s.Sane) (has : s.AsIn contexts)
    (hplain : entries.all Entry.isPlain = true) (hmild : MildBelow contexts (entryHoldings entries))
    (hrun : s.control = .run) (hstack : s.stack = .discarding entries cause :: below) :
    exists s' log, s'.control = .run ∧ s'.stack = .discarding [] cause :: below ∧
      s.Removes (WaitsIn cause) (HeldFrom contexts (entryHoldings entries)) log s' ∧
        (s.running ≠ mainContext -> log = dropLog (abandonLog contexts .fiber) entries) := by
  induction entries generalizing s with
  | nil =>
      refine ⟨s, [], hrun, hstack, Removes.refl.congr rfl ?_, fun _ => rfl⟩
      exact fun c => iff_of_false id not_heldFrom_nil
  | cons e rest ih =>
      rw [entryHoldings_cons, mildBelow_append] at hmild
      rw [List.all_cons, Bool.and_eq_true] at hplain
      have hfirst : exists s' log, s'.control = .run ∧ s'.stack = .discarding rest cause :: below ∧
          s.Removes (WaitsIn cause) (HeldFrom contexts e.holdings) log s' ∧
            (s.running ≠ mainContext -> log = e.dropLog (abandonLog contexts .fiber)) := by
        cases e with
        | slot name h =>
            cases h with
            | empty =>
                have hstep : s.step = s.go s.world (.discarding rest cause :: below) := by
                  simp only [step, hrun, run, hstack, runDiscarding]
                refine ⟨_, [], rfl, rfl, (Removes.single hstep ?_ rfl rfl World.gains_nil).congr rfl ?_,
                  fun _ => rfl⟩
                · simp [operation?, hrun, hstack]
                · exact fun c => iff_of_false id not_heldFrom_nil
            | live fiber =>
                have hfirst := hmild.1 fiber (List.mem_singleton.mpr rfl)
                rcases hothers hsane has hfirst hrun hstack with ⟨s', hrun', hstack', hremoves⟩
                refine ⟨s', _, hrun', hstack', hremoves.congr rfl fun c => heldFrom_handle.symm, ?_⟩
                intro hfiber
                rw [hsane.kind_fiber hfiber]
                rfl
        | guard label onDrop =>
            rw [List.isEmpty_iff.mp hplain.1] at hstack
            have hstep : s.step = s.go ({ s.world with liveGuards := s.world.liveGuards - 1 }.report
                (.dropped label s.kind)) (.discarding rest cause :: below) := by
              simp only [step, hrun, run, hstack, runDiscarding]
            refine ⟨_, [.dropped label s.kind], rfl, rfl,
              (Removes.single hstep ?_ rfl rfl ?_).congr rfl ?_, ?_⟩
            · simp [operation?, hrun, hstack]
            · exact (World.gains_guards _).trans (World.gains_report rfl)
            · intro c
              refine iff_of_false id ?_
              intro hheld
              rcases hheld with ⟨d, hd, -⟩
              cases List.mem_singleton.mp hd
            · intro hfiber
              rw [hsane.kind_fiber hfiber]
              rfl
      rcases hfirst with ⟨s', log, hrun', hstack', hremoves, hlog⟩
      rcases ih (hsane.idles hremoves.idles) (has.sweeps hremoves.toSweeps) hplain.2 hmild.2 hrun'
        hstack' with ⟨s'', log', hrun'', hstack'', hremoves', hlog'⟩
      refine ⟨s'', log ++ log', hrun'', hstack'',
        (hremoves.trans hremoves').congr rfl fun c => heldFrom_append.symm, ?_⟩
      intro hfiber
      rw [hlog hfiber, hlog' (hremoves.running.symm ▸ hfiber)]
      rfl

/-! ### Code -/

theorem Abandons.block {a : Activation} {b : Block} {outer : List Block} {cause : Unwind}
    {below : List Frame} (hsane : s.Sane) (has : s.AsIn contexts) (hresult : a.flow.result = .empty)
    (hblocks : a.blocks = b :: outer) (hplain : b.entries.all Entry.isPlain = true)
    (hmild : MildBelow contexts b.holdings) (hrun : s.control = .run)
    (hstack : s.stack = .discarding [] (some cause) :: .code a :: below) :
    exists s' flow code log, flow.result = .empty ∧ s'.control = .run ∧
      s'.stack = .discarding [] (some cause) ::
        .code { a with flow := flow, blocks := ⟨b.kind, code, []⟩ :: outer } :: below ∧
      s.Removes (WaitsIn (some cause)) (HeldFrom contexts b.holdings) log s' ∧
        (s.running ≠ mainContext -> log = dropLog (abandonLog contexts .fiber) b.entries) := by
  cases hentries : b.entries with
  | nil =>
      refine ⟨s, a.flow, b.code, [], hresult, hrun, ?_, Removes.refl.congr rfl ?_, fun _ => rfl⟩
      · rw [hstack, <- hentries, <- hblocks]
      · rw [Block.holdings, hentries]
        exact fun c => iff_of_false id not_heldFrom_nil
  | cons e es =>
      have hstep : s.step = s.raise s.world cause (e :: es)
          (.code { a with flow := .onward, blocks := ⟨b.kind, [], []⟩ :: outer } :: below) := by
        rw [step_of_unwind hrun hstack]
        simp only [unwindInto, unwindCode, hresult, Handle.entries, hblocks, hentries]
      rw [Block.holdings, hentries] at hmild ⊢
      rw [hentries] at hplain
      have hraised : s.Removes (WaitsIn (some cause)) (fun _ => False) [] _ :=
        .single hstep (by simp [operation?, hrun, hstack]) rfl rfl World.gains_nil
      rcases hothers.entries (hsane.idles hraised.idles) (has.sweeps hraised.toSweeps) hplain hmild
        rfl rfl with ⟨s', log, hrun', hstack', hremoves, hlog⟩
      refine ⟨s', .onward, [], log, rfl, hrun', hstack', (hraised.trans hremoves).congr rfl ?_, hlog⟩
      exact fun c => iff_of_eq (false_or _)

omit hothers in
/-- A block that is left with nothing in it is passed, and tells so if it attempts its code. -/
theorem step_of_passed {a : Activation} {b : Block} {outer : List Block} {cause : Unwind}
    {below : List Frame} {waits : List Frame -> Prop} (hresult : a.flow.result = .empty)
    (hblocks : a.blocks = b :: outer) (hentries : b.entries = []) (hmild : b.isMild = true)
    (hpanic : forall payload, cause = .panic payload -> forall swallow, b.kind ≠ .attempt swallow)
    (hrun : s.control = .run)
    (hstack : s.stack = .discarding [] (some cause) :: .code a :: below) :
    exists s', s'.control = .run ∧
      s'.stack = .discarding [] (some cause) ::
        .code { a with flow := .onward, blocks := outer } :: below ∧
      s.Removes waits (fun _ => False) (b.kind.unwindLog a.label) s' := by
  have hidle : s.operation? = none := by simp [operation?, hrun, hstack]
  have hstep := step_of_unwind hrun hstack
  simp only [unwindInto, unwindCode, hresult, Handle.entries, hblocks, hentries] at hstep
  cases hkind : b.kind with
  | attempt swallow =>
      cases swallow with
      | true => simp [Block.isMild, hkind] at hmild
      | false =>
          cases cause with
          | panic payload => exact absurd hkind (hpanic payload rfl false)
          | forced requester =>
              simp only [hkind] at hstep
              exact ⟨_, rfl, rfl, .single hstep hidle rfl rfl (World.gains_report rfl)⟩
  | body | scope | rounds left code | whileLive slot left code =>
      simp only [hkind] at hstep
      exact ⟨_, rfl, rfl, .single hstep hidle rfl rfl World.gains_nil⟩

/-- The blocks of unwinding code are closed, the innermost first, if none of them catches a panic. -/
theorem Abandons.code {a : Activation} {cause : Unwind} {below : List Frame}
    (hsane : s.Sane) (has : s.AsIn contexts) (hresult : a.flow.result = .empty)
    (hplain : a.blocks.all Block.isMild = true)
    (hpanic : forall payload, cause = .panic payload ->
      forall b, b ∈ a.blocks -> forall swallow, b.kind ≠ .attempt swallow)
    (hmild : MildBelow contexts a.holdings) (hrun : s.control = .run)
    (hstack : s.stack = .discarding [] (some cause) :: .code a :: below) :
    exists s' log, s'.control = .run ∧ s'.stack = .discarding [] (some cause) :: below ∧
      s.Removes (WaitsIn (some cause)) (HeldFrom contexts a.holdings) log s' ∧
        (s.running ≠ mainContext -> log = a.unwindLog (abandonLog contexts .fiber)) := by
  rcases a with ⟨label, role, blocks, flow⟩
  simp only [Activation.holdings, Activation.unwindLog, hresult, holdings_empty,
    List.nil_append] at hmild ⊢
  induction blocks generalizing s flow with
  | nil =>
      have hstep : s.step = s.go s.world (.discarding [] (some cause) :: below) := by
        rw [step_of_unwind hrun hstack]
        simp only [unwindInto, unwindCode, hresult, Handle.entries, raise]
      refine ⟨_, [], rfl, rfl, (Removes.single hstep ?_ rfl rfl World.gains_nil).congr rfl ?_,
        fun _ => rfl⟩
      · simp [operation?, hrun, hstack]
      · exact fun c => iff_of_false id not_heldFrom_nil
  | cons b outer ih =>
      rw [List.flatMap_cons, mildBelow_append] at hmild
      simp only [List.all_cons, Bool.and_eq_true] at hplain
      have hentries : b.entries.all Entry.isPlain = true := (Bool.and_eq_true_iff.mp hplain.1).1
      rcases hothers.block hsane has hresult rfl hentries hmild.1 hrun hstack with
        ⟨s₁, flow₁, code, log₁, hresult₁, hrun₁, hstack₁, hremoves₁, hlog₁⟩
      have hkind : Block.isMild ⟨b.kind, code, []⟩ = true := (Bool.and_eq_true_iff.mp hplain.1).2
      rcases step_of_passed hresult₁ rfl rfl hkind
        (fun payload heq => hpanic payload heq b List.mem_cons_self) hrun₁ hstack₁ with
        ⟨s₂, hrun₂, hstack₂, hremoves₂⟩
      have hremoves := hremoves₁.trans hremoves₂
      rcases ih (hsane.idles hremoves.idles) (has.sweeps hremoves.toSweeps) hrun₂ .onward rfl hplain.2
        (fun payload heq c hc => hpanic payload heq c (List.mem_cons_of_mem _ hc)) hstack₂
        hmild.2 with ⟨s', log, hrun', hstack', hremoves', hlog⟩
      refine ⟨s', _, hrun', hstack', (hremoves.trans hremoves').congr rfl ?_, ?_⟩
      · intro c
        rw [List.flatMap_cons, heldFrom_append, or_false]
      · intro hfiber
        rw [hlog₁ hfiber, hlog (hremoves.running.symm ▸ hfiber)]
        rfl

/-! ### Whole stacks -/

omit hothers in
/-- The unwind of parked code goes on into a stack below that was parked, or ends the fiber. -/
theorem step_of_left {requester : ContextId} {below : List Frame} (hcarries : CarriesCode below)
    (hstacked : Stacked .fiber below) (hmild : below.all Frame.isMild = true)
    (hrun : s.control = .run)
    (hstack : s.stack = .discarding [] (some (.forced requester)) :: below) :
    (exists source rest s', below = .onTop source :: rest ∧ s'.stack = rest ∧
        s'.control = .landed requester (.message .eviction) ∧
          s.Removes (fun _ => True) (fun _ => False) [] s') ∨
      exists lease s', below = [.base (.busy lease)] ∧ s'.control = .run ∧
        s'.stack = [.base (.leaving lease (.unwound requester))] ∧
          s.Removes (fun _ => True) (fun _ => False) [] s' := by
  have hidle : s.operation? = none := by simp [operation?, hrun, hstack]
  have hstep := step_of_unwind hrun hstack
  unfold CarriesCode at hcarries
  split at hcarries
  · rename_i source rest
    exact Or.inl ⟨source, rest, _, rfl, rfl, rfl, .single hstep hidle rfl rfl World.gains_nil⟩
  · rename_i lease rest
    rcases hstacked with ⟨-, -, rfl⟩
    exact Or.inr ⟨lease, _, rfl, rfl, rfl, .single hstep hidle rfl rfl World.gains_nil⟩
  · exact absurd hstacked.1 (by decide)
  · simp [Frame.isMild] at hmild
  · simp [Frame.isMild] at hmild
  · exact False.elim hcarries

theorem Abandons.captured {requester : ContextId} {record : Record} {body : Closure}
    (hsane : s.Sane) (hfiber : s.running ≠ mainContext) (has : s.AsIn contexts)
    (hbody : record.body = some body) (hplain : body.captured.all Entry.isPlain = true)
    (hmild : MildBelow contexts (entryHoldings body.captured))
    (hcontrol : s.control = .landed requester (.message .eviction))
    (hstack : s.stack = [.base (.idle record)]) :
    exists s', s'.control = .run ∧
      s'.stack = [.base (.leaving record.lease (.unwound requester))] ∧
      s.Removes (fun _ => True) (HeldFrom contexts (entryHoldings body.captured))
        (dropLog (abandonLog contexts .fiber) body.captured) s' := by
  have hstep : s.step = s.go s.world
      (dropFirst body.captured [.base (.leaving record.lease (.unwound requester))]) := by
    simp only [step, hcontrol, land, receive, hstack, hbody, Closure.leftover]
  have hevicted : s.Removes (fun _ => True) (fun _ => False) [] _ :=
    .single hstep (operation?_landed hcontrol) rfl rfl World.gains_nil
  cases hcaptured : body.captured with
  | nil =>
      rw [hcaptured] at hevicted
      refine ⟨_, rfl, rfl, hevicted.congr rfl ?_⟩
      exact fun c => iff_of_false id not_heldFrom_nil
  | cons e es =>
      rw [hcaptured] at hplain hmild hevicted
      rcases hothers.entries (hsane.idles hevicted.idles) (has.sweeps hevicted.toSweeps) hplain hmild
        rfl rfl with ⟨s₁, log, hrun₁, hstack₁, hremoves₁, hlog⟩
      have hstep₁ : s₁.step =
          s₁.go s₁.world [.base (.leaving record.lease (.unwound requester))] := by
        simp only [step, hrun₁, run, hstack₁, runDiscarding]
      have hleft : s₁.Removes (fun _ => True) (fun _ => False) [] _ :=
        .single hstep₁ (by simp [operation?, hrun₁, hstack₁]) rfl rfl World.gains_nil
      have hdropped : State.Removes _ (fun _ => True) _ _ _ := hremoves₁.mono fun _ _ => trivial
      refine ⟨_, rfl, rfl, ((hevicted.trans hdropped).trans hleft).congr ?_ ?_⟩
      · rw [hlog hfiber, List.nil_append, List.append_nil]
      · exact fun c => by rw [false_or, or_false]

/-- A fiber that is told to unwind comes to its end. -/
theorem Abandons.stack (requester : ContextId) (hsane : s.Sane) (hfiber : s.running ≠ mainContext)
    (has : s.AsIn contexts) (hneed : needOf s.stack = some .handle)
    (hstacked : Stacked .fiber s.stack) (hplain : s.stack.all Frame.isMild = true)
    (hmild : MildBelow contexts (stackHoldings s.stack))
    (hcontrol : s.control = .landed requester (.message .eviction)) :
    exists s' lease, leaseOf s.stack = some lease ∧ s'.control = .run ∧
      s'.stack = [.base (.leaving lease (.unwound requester))] ∧
      s.Removes (fun _ => True) (HeldFrom contexts (stackHoldings s.stack))
        (unwindLog (abandonLog contexts .fiber) s.stack) s' := by
  induction hlength : s.stack.length using Nat.strongRecOn generalizing s with
  | _ n ih =>
      rcases needOf_handle hneed with ⟨host, target, a, below, hstack⟩ | ⟨record, below, hstack⟩
      · rw [hstack] at hstacked hplain hmild hlength ⊢
        rcases hstacked with ⟨-, hflow, hcarries, hbelow⟩
        simp only [List.all_cons, Frame.isMild, Bool.and_eq_true] at hplain
        rw [stackHoldings_cons, mildBelow_append] at hmild
        have hstep : s.step = s.raise (s.world.trace (.forcedUnwind requester)) (.forced requester)
            [] (.code a :: below) := by
          simp only [step, hcontrol, land, receive, hstack, hsane.kind_fiber hfiber, Closure.leftover]
        have hevicted : s.Removes (fun _ => True) (fun _ => False) [] _ :=
          .single hstep (operation?_landed hcontrol) rfl rfl (World.gains_trace _)
        rcases hothers.code (hsane.idles hevicted.idles) (has.sweeps hevicted.toSweeps)
          (by rw [hflow]; rfl) hplain.1 (by rintro _ ⟨⟩) hmild.1 rfl rfl with
          ⟨s₁, log, hrun₁, hstack₁, hcode, hlog⟩
        rw [hlog hfiber] at hcode
        have hremoves := hevicted.trans (hcode.mono fun _ _ => trivial)
        rcases step_of_left hcarries hbelow hplain.2 hrun₁ hstack₁ with
          ⟨source, rest, s₂, rfl, hstack₂, hcontrol₂, hleft⟩ |
            ⟨lease, s₂, rfl, hrun₂, hstack₂, hleft⟩
        · -- The unwind is delivered once more, to what lies under the function.
          have hremoves₂ := hremoves.trans hleft
          have hfiber₂ : s₂.running ≠ mainContext := by
            rw [hremoves₂.running]
            exact hfiber
          have hless : s₂.stack.length < n := by
            rw [hstack₂, <- hlength]
            simp only [List.length_cons]
            omega
          rcases ih _ hless (hsane.idles hremoves₂.idles) hfiber₂ (has.sweeps hremoves₂.toSweeps)
            (by rw [hstack₂]; exact hbelow.1) (by rw [hstack₂]; exact hbelow.2)
            (by rw [hstack₂]; exact hplain.2) (by rw [hstack₂]; exact hmild.2) hcontrol₂ rfl with
            ⟨s', lease, hlease, hrun', hstack', hrest⟩
          rw [hstack₂] at hlease hrest
          refine ⟨s', lease, hlease, hrun', hstack', (hremoves₂.trans hrest).congr ?_ ?_⟩
          · simp [unwindLog, Frame.unwindLog]
          · intro c
            simp [stackHoldings_cons, Frame.holdings, Call.holdings, Closure.leftover,
              heldFrom_append]
        · refine ⟨s₂, lease, rfl, hrun₂, hstack₂, (hremoves.trans hleft).congr ?_ ?_⟩
          · simp [unwindLog, Frame.unwindLog]
          · intro c
            simp [stackHoldings_cons, Frame.holdings, Call.holdings, Closure.leftover,
              FiberStage.holdings]
      · rw [hstack] at hstacked hmild ⊢
        rcases hstacked with ⟨-, ⟨body, hbody, hcaptured⟩, rfl⟩
        have hheld : stackHoldings [.base (.idle record)] = entryHoldings body.captured := by
          simp [stackHoldings_cons, Frame.holdings, FiberStage.holdings, Record.holdings, hbody,
            Closure.leftover]
        have hlog : forall f, unwindLog f [.base (.idle record)] = dropLog f body.captured := by
          simp [unwindLog, Frame.unwindLog, hbody, Closure.leftover]
        rw [hheld] at hmild ⊢
        rw [hlog]
        rcases hothers.captured hsane hfiber has hbody hcaptured hmild hcontrol hstack with
          ⟨s', hrun', hstack', hremoves⟩
        exact ⟨s', record.lease, rfl, hrun', hstack', hremoves⟩

end Stack

/-! ## Going and coming back -/

theorem release_gains {source : ContextId} {lease : Lease} {below : List Frame}
    (h : s.parked? source = some (.base (.exited lease) :: below))
    (hrelease : s.release source = .active s') :
    s.world.Gains (lease.returnLog s'.kind) s'.world := by
  simp only [release, h] at hrelease
  cases howner : lease.owner with
  | none =>
      simp only [howner, Config.active.injEq] at hrelease
      rw [<- hrelease]
      refine ⟨rfl, rfl, rfl, rfl, ?_⟩
      simp [Lease.returnLog, howner, World.untraced, World.trace, World.report, LogEntry.isTrace]
  | some label =>
      simp only [howner, Config.active.injEq] at hrelease
      rw [<- hrelease]
      refine ⟨rfl, rfl, rfl, rfl, ?_⟩
      simp [Lease.returnLog, howner, World.untraced, World.trace, World.report, LogEntry.isTrace,
        State.kind, World.kindOf]

/-- Control goes to a fiber that has to unwind, and the running context waits for that. -/
structure Enters (s : State) (waiting : List Frame) (fiber : ContextId) (there : List Frame)
    (s' : State) : Prop where
  idles : s.Idles s'
  sane : s'.Sane
  running : s'.running = fiber
  stack : s'.stack = there
  control : s'.control = .landed s.running (.message .eviction)
  world : s.world.Gains [] s'.world
  parked : forall c, s'.parked? c =
    if c = fiber then some [] else if c = s.running then some waiting else s.parked? c

theorem Sane.enters {fiber : ContextId} {name : SlotName} {rest : List Entry}
    {cause : Option Unwind} {below : List Frame} (hsane : s.Sane) (hrun : s.control = .run)
    (hstack : s.stack = .discarding (.slot name (.live fiber) :: rest) cause :: below) :
    exists s' there, s.Enters (.dropping :: .discarding rest cause :: below) fiber there s' ∧
      s.parked? fiber = some there ∧ needOf there = some .handle ∧
      Stacked (homeOf fiber) there ∧ fiber ≠ s.running := by
  rcases hsane with ⟨lost, hsound⟩
  have htoken : .token .handle fiber ∈ s.holdings := by
    simp [holdings, pool, hstack, Frame.holdings, Entry.holdings, Handle.holdings]
  rcases hsound.parked_of_token (List.count_pos_iff.mpr htoken) with ⟨there, hthere, hneed⟩
  have hne := hsound.ne_running hthere hneed
  have hstep : s.step = .active (s.hop (s.world.trace (.abandoned fiber))
      (.dropping :: .discarding rest cause :: below) fiber there (.message .eviction)) := by
    simp only [step, hrun, run, hstack, runDiscarding]
    exact transfer_eq_hop hthere (needOf_ne_nil hneed)
  have hidles : s.Idles _ := ⟨hstep, by simp [operation?, hrun, hstack]⟩
  refine ⟨_, there, ⟨hidles, ⟨_, (hsound.move hstep).2⟩, rfl, rfl, rfl, World.gains_trace _, ?_⟩,
    hthere, hneed, (hsound.parked fiber there hne hthere).1, hne⟩
  exact parked?_hop _ _ _ _ hsound.listed hthere hne

theorem Enters.asIn {contexts : List (ContextId × List Frame)} {waiting there : List Frame}
    {fiber : ContextId} (he : s.Enters waiting fiber there s')
    (hwaits : needOf waiting ≠ some .handle) (has : s.AsIn contexts) :
    s'.AsIn (contexts.filter (fun entry => entry.1 ≠ fiber)) := by
  intro c stack hc hneed
  rw [he.parked] at hc
  by_cases hcf : c = fiber
  · rw [if_pos hcf, Option.some.injEq] at hc
    rw [<- hc] at hneed
    cases hneed
  · rw [if_neg hcf] at hc
    rw [lookup_filter_of_ne hcf]
    by_cases hrunning : c = s.running
    · rw [if_pos hrunning, Option.some.injEq] at hc
      rw [<- hc] at hneed
      exact absurd hneed hwaits
    · rw [if_neg hrunning] at hc
      exact has c stack hc hneed

/-- A fiber is gone, with its stack given back, and control is back where it was waited for. -/
structure Leaves (s : State) (requester : ContextId) (below : List Frame) (log : List LogEntry)
    (s' : State) : Prop where
  idles : ReflTransGen Idles s s'
  running : s'.running = requester
  control : s'.control = .run
  stack : s'.stack = below
  world : s.world.Gains log s'.world
  waited : s.parked? requester ≠ none
  parked : forall c, s'.parked? c =
    if c = s.running then none else if c = requester then some [] else s.parked? c

theorem Sane.leaves {lease : Lease} {requester : ContextId} {below : List Frame} (hsane : s.Sane)
    (hrun : s.control = .run) (hstack : s.stack = [.base (.leaving lease (.unwound requester))])
    (hleft : forall there, s.parked? requester = some there -> there = .dropping :: below) :
    exists s', s.Leaves requester below (lease.returnLog (homeOf requester)) s' := by
  rcases hsane with ⟨lost, hsound⟩
  have htoken : .token .request requester ∈ s.holdings := by
    simp [holdings, pool, hstack, Frame.holdings, FiberStage.holdings, Ending.holdings]
  have hwaits : s.parked? requester = some (.dropping :: below) := by
    rcases hsound.parked_of_token (List.count_pos_iff.mpr htoken) with ⟨there, hthere, -⟩
    rw [hthere, hleft there hthere]
  have hne := hsound.ne_running hwaits (show needOf _ = some .request from rfl)
  have hstep : s.step = .active (s.hop (s.world.trace (.exiting lease.name))
      [.base (.exited lease)] requester (.dropping :: below) .exit) := by
    simp only [step, hrun, run, hstack, runBase]
    exact transfer_eq_hop hwaits (List.cons_ne_nil _ _)
  have hparked := parked?_hop (s.world.trace (.exiting lease.name)) [.base (.exited lease)]
    (.dropping :: below) .exit hsound.listed hwaits hne
  have hsound₁ := (hsound.move hstep).2
  generalize hs₁ : s.hop (s.world.trace (.exiting lease.name)) [.base (.exited lease)] requester
    (.dropping :: below) .exit = s₁ at hstep hparked hsound₁
  have hcontrol₁ : s₁.control = .landed s.running .exit := by rw [<- hs₁]; rfl
  rcases hsound₁.release hcontrol₁ with ⟨lease', s₂, hsource, hrelease, hr, hsound₂⟩
  have hlease : lease' = lease := by
    rw [hparked, if_neg hne.symm, if_pos rfl] at hsource
    cases hsource
    rfl
  rw [hlease] at hsource hr
  have hstep₁ : s₁.step = .active s₂ := by
    simp only [step, hcontrol₁, land, hrelease]
  have hstack₂ : s₂.stack = .dropping :: below := by rw [hr.stack, <- hs₁]; rfl
  have hrunning₂ : s₂.running = requester := by rw [hr.running, <- hs₁]; rfl
  have hstep₂ : s₂.step = s₂.go s₂.world below := by
    simp only [step, hr.control, land, receive, hstack₂]
  have hgains := release_gains hsource hrelease
  rw [hsound₂.kind, hrunning₂] at hgains
  refine ⟨{ s₂ with stack := below, control := .run }, ?_⟩
  constructor
  · have hidle : s.operation? = none := by simp [operation?, hrun, hstack]
    have hidle₁ : s₁.operation? = none := operation?_landed hcontrol₁
    have hidle₂ : s₂.operation? = none := operation?_landed hr.control
    exact ((ReflTransGen.single ⟨hstep, hidle⟩).tail ⟨hstep₁, hidle₁⟩).tail ⟨hstep₂, hidle₂⟩
  · exact hrunning₂
  · rfl
  · rfl
  · have hexiting : s.world.Gains [] s₁.world := by
      rw [<- hs₁]
      exact World.gains_trace _
    exact hexiting.trans hgains
  · simp [hwaits]
  · intro c
    have hreleased : State.parked? { s₂ with stack := below, control := .run } c =
        if c = s.running then none else s₁.parked? c := hr.parked? c
    rw [hreleased, hparked]
    by_cases hc : c = s.running
    · rw [if_pos hc, if_pos hc]
    · rw [if_neg hc, if_neg hc, if_neg hc]

/-! ## All fibers -/

/-- With a fiber goes what is held on its stack. -/
theorem reach_iff {contexts : List (ContextId × List Frame)} {fiber c : ContextId}
    {stack : List Frame} (hlookup : contexts.lookup fiber = some stack) :
    ReflTransGen (HoldsIn contexts) fiber c ↔
      c = fiber ∨
        HeldFrom (contexts.filter (fun entry => entry.1 ≠ fiber)) (stackHoldings stack) c := by
  constructor
  · intro h
    induction h with
    | refl => exact Or.inl rfl
    | tail hbefore hstep ih =>
        rename_i d e
        rcases hstep with ⟨there, hthere, hmem⟩
        by_cases hd : d = fiber
        · rw [hd, hlookup, Option.some.injEq] at hthere
          rw [<- hthere] at hmem
          exact Or.inr ⟨e, hmem, .refl⟩
        · rcases ih.resolve_left hd with ⟨first, hfirst, hpath⟩
          refine Or.inr ⟨first, hfirst, hpath.tail ⟨there, ?_, hmem⟩⟩
          rwa [lookup_filter_of_ne hd]
  · intro hgoes
    rcases hgoes with rfl | ⟨first, hfirst, hpath⟩
    · exact .refl
    · exact (reflTransGen_of_filter hpath).head ⟨stack, hlookup, hfirst⟩

/-- All that is held on the stack of a fiber goes while the fiber is waited for. -/
theorem Enters.removes {waiting there below : List Frame} {fiber : ContextId} {lease : Lease}
    {waits waits' : List Frame -> Prop} {t : State} (he : s.Enters waiting fiber there s')
    (hc : s'.Removes waits' gone log s'') (hrun : s''.control = .run)
    (hstack : s''.stack = [.base (.leaving lease (.unwound s.running))])
    (hl : s''.Leaves s.running below log' t) (hlisted : s.parked? s.running = some [])
    (hthere : s.parked? fiber = some there) (hne : fiber ≠ s.running) (hwaits : waits waiting) :
    s.Removes waits (fun c => c = fiber ∨ gone c) (log ++ log') t := by
  have hrunning : s''.running = fiber := hc.running.trans he.running
  have hparked : forall c, t.parked? c =
      if c = fiber then none else if c = s.running then some [] else s''.parked? c := by
    intro c
    rw [hl.parked, hrunning]
  have hstays : ¬ gone s.running := fun hgone => hl.waited (hc.cleared _ hgone)
  have hwaiting : s'.parked? s.running = some waiting := by
    rw [he.parked, if_neg hne.symm, if_pos rfl]
  have hothers : forall d, d ≠ s.running -> d ≠ fiber -> s'.parked? d = s.parked? d :=
    fun d hd hdf => by rw [he.parked, if_neg hdf, if_neg hd]
  refine ⟨⟨(hc.idles.head he.idles).trans hl.idles, hl.running, ?_, ?_, ?_⟩,
    (he.world.trans hc.world).trans hl.world⟩
  · intro c hgone
    rw [hparked]
    by_cases hcf : c = fiber
    · rw [if_pos hcf]
    · have hleft := hgone.resolve_left hcf
      have hother : c ≠ s.running := fun heq => hstays (heq ▸ hleft)
      rw [if_neg hcf, if_neg hother, hc.cleared c hleft]
  · intro c hkept
    rcases not_or.mp hkept with ⟨hcf, hnot⟩
    rw [hparked, if_neg hcf]
    by_cases hself : c = s.running
    · rw [if_pos hself, hself, hlisted]
    · rw [if_neg hself, hc.kept c hnot, hothers c hself hcf]
  · intro c stack hgone hcstack
    by_cases hcf : c = fiber
    · subst hcf
      rw [hthere, Option.some.injEq] at hcstack
      refine ⟨s', ⟨.single he.idles, he.running, he.stack.trans hcstack, ?_⟩,
        ⟨waiting, hwaiting, hwaits⟩, fun d hd hnot => hothers d hd fun h => hnot (Or.inl h)⟩
      exact ⟨s.running, lease, s'', he.control, hc.idles, hrunning, hrun, hstack, hl.idles⟩
    · have hleft := hgone.resolve_left hcf
      have hother : c ≠ s.running := fun heq => hstays (heq ▸ hleft)
      rcases hc.evicted c stack hleft ((hothers c hother hcf).trans hcstack) with
        ⟨u, hevicts, -, hkept⟩
      rw [he.running] at hkept
      refine ⟨u, (hevicts.earlier (.single he.idles)).later hl.idles,
        ⟨waiting, (hkept _ hne.symm hstays).trans hwaiting, hwaits⟩, fun d hd hnot => ?_⟩
      rcases not_or.mp hnot with ⟨hdf, hnot⟩
      rw [hkept d hdf hnot, hothers d hd hdf]

theorem abandonsAll (contexts : List (ContextId × List Frame)) : Abandons contexts := by
  induction hlength : contexts.length using Nat.strongRecOn generalizing contexts with
  | _ n ih =>
      intro s fiber name rest cause below hsane has hmild hrun hstack
      rcases hsane.enters hrun hstack with ⟨s₁, there, henters, hthere, hneed, hstacked, hne⟩
      have hlookup := has fiber there hthere hneed
      have hless := length_filter_lt hlookup
      rw [hlength] at hless
      have hothers : Abandons (contexts.filter (fun entry => entry.1 ≠ fiber)) := ih _ hless _ rfl
      rcases hmild fiber .refl with ⟨hmain, hplain⟩
      rw [homeOf, if_neg hmain] at hstacked
      have hfiber : s₁.running ≠ mainContext := by
        rw [henters.running]
        exact hmain
      have hbelow : MildBelow (contexts.filter (fun entry => entry.1 ≠ fiber))
          (stackHoldings there) := by
        intro c hc
        apply MildFrom.of_filter
        exact fun d hd => hmild d (hd.head ⟨there, hlookup, hc⟩)
      have hunwound := hothers.stack s.running henters.sane hfiber
        (henters.asIn (by simp [needOf]) has)
      rw [henters.stack] at hunwound
      rcases hunwound hneed hstacked (hplain there hlookup) hbelow henters.control with
        ⟨s₂, lease, hlease, hrun₂, hstack₂, hremoves⟩
      have hleft : forall waiting, s₂.parked? s.running = some waiting ->
          waiting = .dropping :: .discarding rest cause :: below := by
        intro waiting hwaiting
        have hbefore := hremoves.parked? hwaiting
        rw [henters.parked, if_neg hne.symm, if_pos rfl, Option.some.injEq] at hbefore
        exact hbefore.symm
      rcases (henters.sane.idles hremoves.idles).leaves hrun₂ hstack₂ hleft with ⟨s', hleaves⟩
      have hall : s.Removes (WaitsIn cause) _ _ _ :=
        henters.removes hremoves hrun₂ hstack₂ hleaves hsane.listed hthere hne ⟨rest, below, rfl⟩
      refine ⟨s', hleaves.control, hleaves.stack, hall.congr ?_ fun c => (reach_iff hlookup).symm⟩
      rw [abandonLog_of_lookup hlookup, hsane.kind, returnLog, hlease, Option.toList_some,
        List.flatMap_singleton]

theorem abandons (contexts : List (ContextId × List Frame)) {fiber : ContextId} {name : SlotName}
    {rest : List Entry} {cause : Option Unwind} {below : List Frame} (hsane : s.Sane)
    (has : s.AsIn contexts) (hmild : MildFrom contexts fiber) (hrun : s.control = .run)
    (hstack : s.stack = .discarding (.slot name (.live fiber) :: rest) cause :: below) :
    exists s', s'.control = .run ∧ s'.stack = .discarding rest cause :: below ∧
      s.Clears (ReflTransGen (HoldsIn contexts) fiber) (abandonLog contexts s.kind fiber) s' := by
  rcases abandonsAll contexts hsane has hmild hrun hstack with ⟨s', hrun', hstack', hremoves⟩
  exact ⟨s', hrun', hstack', hremoves.clears⟩

end State

/--
Dropping the handle of a fiber runs no operation, and ends where the drop was begun.  What goes are
the fiber and all that it owns, and the log of it is that of the open frames on their stacks.
-/
theorem forced_unwind {p : Program} {past : List State} {s : State} {fiber : ContextId}
    {name : SlotName} {rest : List Entry} {cause : Option Unwind} {below : List Frame}
    (h : p.Reaches past s) (hrun : s.control = .run)
    (hstack : s.stack = .discarding (.slot name (.live fiber) :: rest) cause :: below)
    (hmild : MildFrom s.contexts fiber) :
    (exists s', s'.control = .run ∧ s'.stack = .discarding rest cause :: below ∧
      s.Clears (ReflTransGen (HoldsIn s.contexts) fiber) (abandonLog s.contexts s.kind fiber) s') ∧
      forall c stack k, ReflTransGen (HoldsIn s.contexts) fiber c -> s.parked? c = some stack ->
        abandonLog s.contexts k c =
          unwindLog (abandonLog s.contexts .fiber) stack ++ returnLog k stack := by
  have hsound := h.sound
  refine ⟨State.abandons s.contexts ⟨_, hsound⟩ (fun _ _ hstack _ => hstack) hmild hrun hstack, ?_⟩
  intro c stack k hpath hc
  apply abandonLog_eq k hc
  have hreached : s.Reached c := by
    clear hc
    induction hpath with
    | refl =>
        apply State.Reached.pool .handle
        simp [State.pool, hstack, Frame.holdings, Entry.holdings, Handle.holdings]
    | tail _ hstep ih =>
        rcases hstep with ⟨there, hthere, hmem⟩
        exact .held .handle ih hthere hmem
  intro hcycle
  apply hreached.acyclic hsound
  refine TransGen.mono ?_ _ _ hcycle
  intro a b hholds
  rcases hholds with ⟨there, hthere, hmem⟩
  exact hsound.owns_of_held hthere hmem

set_option maxRecDepth 10000 in
/-- The fiber that owns another rethrows what unwinds it, and then takes the other with it. -/
theorem forced_unwind_of_nestedFibers :
    exists past s s' rest below, Program.nestedFibers.Reaches past s ∧
      s.stack = .discarding (.slot (.own "outer") (.live 2) :: rest) none :: below ∧
      s'.stack = .discarding rest none :: below ∧
      s.Clears (ReflTransGen (HoldsIn s.contexts) 2)
        [.dropped "l" .fiber, .noted "F" .rethrown, .dropped "h" .fiber, .deallocated "B" .fiber,
          .dropped "g" .fiber, .deallocated "A" .native] s' := by
  have hafter : exists s rest below outer inner,
      Config.after 20 (.active Program.nestedFibers.start) = .active s ∧ s.control = .run ∧
        s.stack = .discarding (.slot (.own "outer") (.live 2) :: rest) none :: below ∧
        s.running = mainContext ∧ s.contexts = [(2, outer), (1, inner), (0, [])] ∧
        (exists host target role code code' stack, outer =
          [.calling (.resume host none target) ⟨"F", role,
              [⟨.attempt false, code, [.guard "l" []]⟩,
                ⟨.body, code', [.slot (.own "caller") .empty, .slot (.own "inner") (.live 1),
                  .guard "g" []]⟩], .onward⟩,
            .base (.busy ⟨none, stack, some "A"⟩)]) ∧
        exists argument code stack, inner =
          [.base (.idle ⟨⟨none, stack, some "B"⟩, some ⟨"G", [.guard "h" []], argument, code⟩⟩)] :=
    ⟨_, _, _, _, _, rfl, rfl, rfl, rfl, rfl, ⟨_, _, _, _, _, _, rfl⟩, ⟨_, _, _, rfl⟩⟩
  rcases hafter with ⟨s, rest, below, outer, inner, hs, hrun, hstack, hrunning, hcontexts,
    ⟨host, target, role, code, code', stack, hout⟩, ⟨argument, code'', stack', hin⟩⟩
  rcases Program.after_eq_active.mp hs with ⟨past, -, hreach⟩
  have houter : s.parked? 2 = some outer := by
    rw [State.parked?, hcontexts]
    rfl
  have hinner : s.parked? 1 = some inner := by
    rw [State.parked?, hcontexts]
    rfl
  have hkind : s.kind = .native := by
    rw [hreach.sound.kind, hrunning]
    rfl
  have hheld : stackHoldings outer = [.guard "l", .token .handle 1, .guard "g"] := by
    rw [hout]
    rfl
  have hheld' : stackHoldings inner = [.guard "h"] := by
    rw [hin]
    rfl
  have hpath : forall c, ReflTransGen (HoldsIn s.contexts) 2 c -> c = 2 ∨ c = 1 := by
    intro c hc
    induction hc with
    | refl => exact Or.inl rfl
    | tail _ hstep ih =>
        rcases hstep with ⟨there, hthere, hmem⟩
        rcases ih with rfl | rfl
        · rw [<- Option.some.inj (houter.symm.trans hthere), hheld] at hmem
          exact Or.inr (by simpa using hmem)
        · rw [<- Option.some.inj (hinner.symm.trans hthere), hheld'] at hmem
          exact absurd hmem (by simp)
  have hmild : MildFrom s.contexts 2 := by
    intro c hc
    rcases hpath c hc with rfl | rfl
    · refine ⟨by decide, fun there hthere => ?_⟩
      rw [<- Option.some.inj (houter.symm.trans hthere), hout]
      rfl
    · refine ⟨by decide, fun there hthere => ?_⟩
      rw [<- Option.some.inj (hinner.symm.trans hthere), hin]
      rfl
  rcases forced_unwind hreach hrun hstack hmild with ⟨⟨s', -, hstack', hclears⟩, hlog⟩
  refine ⟨past, s, s', rest, below, hreach, hstack, hstack', hclears.congr ?_ fun _ => Iff.rfl⟩
  have hnext : ReflTransGen (HoldsIn s.contexts) 2 1 :=
    .single ⟨outer, houter, by simp [hheld]⟩
  rw [hlog 2 outer s.kind .refl houter, hkind, hout]
  simp only [unwindLog, List.flatMap_cons, List.flatMap_nil, Frame.unwindLog,
    Activation.unwindLog, Block.unwindLog, BlockKind.unwindLog, dropLog, Entry.dropLog]
  rw [hlog 1 inner .fiber hnext hinner, hin]
  rfl

end Fibers
