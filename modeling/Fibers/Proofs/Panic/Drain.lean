import Fibers.Proofs.Panic.Settled

/-!
# What goes with the main program

A panic of the main program closes its open frames, and then the shared slots are drained as at the
end of any run.  Each handle that is dropped on the way takes a fiber with it, and all that this owns.
The panic waits for that, and then goes on as it was.
-/

namespace Fibers

open Relation (ReflTransGen)

/-! ## Shared slots that are taken -/

section Exchange

variable {name n : String} {h k old : Handle} {gs gs' : List (String × Handle)}

theorem mem_of_exchangeShared (hx : exchangeShared name h gs = some (old, gs')) :
    (name, old) ∈ gs := by
  induction gs generalizing gs' with
  | nil => cases hx
  | cons g rest ih =>
      rcases g with ⟨m, there⟩
      by_cases hm : m = name
      · simp only [exchangeShared, hm, if_true, Option.some.injEq, Prod.mk.injEq] at hx
        rcases hx with ⟨rfl, -⟩
        exact hm ▸ List.mem_cons_self
      · simp only [exchangeShared, hm, if_false, Option.map_eq_some_iff] at hx
        rcases hx with ⟨⟨o, r⟩, hr, heq⟩
        cases heq
        exact List.mem_cons_of_mem _ (ih hr)

theorem exchangeShared_others (hn : n ≠ name) (hx : exchangeShared name h gs = some (old, gs')) :
    (n, k) ∈ gs' ↔ (n, k) ∈ gs := by
  induction gs generalizing gs' with
  | nil => cases hx
  | cons g rest ih =>
      rcases g with ⟨m, there⟩
      by_cases hm : m = name
      · simp only [exchangeShared, hm, if_true, Option.some.injEq, Prod.mk.injEq] at hx
        rcases hx with ⟨rfl, rfl⟩
        simp [hm, hn]
      · simp only [exchangeShared, hm, if_false, Option.map_eq_some_iff] at hx
        rcases hx with ⟨⟨o, r⟩, hr, heq⟩
        cases heq
        rw [List.mem_cons, List.mem_cons, ih hr]

end Exchange

namespace World

variable {w : World} {name n : String} {k : Handle} {fiber : ContextId}

theorem take_others (hn : n ≠ name) : (n, k) ∈ (w.take name).2.globals ↔ (n, k) ∈ w.globals := by
  cases hx : exchangeShared name .empty w.globals with
  | none => simp [take, hx]
  | some found => simpa [take, hx] using exchangeShared_others hn hx

theorem NamesOnce.take_eq (honce : w.NamesOnce) (hmem : (name, k) ∈ w.globals) :
    (w.take name).1 = k := by
  cases hx : exchangeShared name .empty w.globals with
  | none => exact absurd (List.mem_map.mpr ⟨_, hmem, rfl⟩) (not_mem_names_of_exchangeShared hx)
  | some found => simpa [World.take, hx] using ((exchangeShared_old honce hx).1 k hmem).symm

theorem NamesOnce.take_left (honce : w.NamesOnce) (hmem : (name, k) ∈ (w.take name).2.globals) :
    k = .empty := by
  cases hx : exchangeShared name .empty w.globals with
  | none =>
      rw [World.take, hx] at hmem
      exact absurd (List.mem_map.mpr ⟨_, hmem, rfl⟩) (not_mem_names_of_exchangeShared hx)
  | some found =>
      have hafter : (found.2.map Prod.fst).Nodup := by
        rw [exchangeShared_names hx]
        exact honce
      rw [World.take, hx] at hmem
      exact (exchangeShared_old hafter (exchangeShared_undo hx)).1 k hmem

theorem mem_of_take (htake : (w.take name).1 = .live fiber) : (name, .live fiber) ∈ w.globals := by
  cases hx : exchangeShared name .empty w.globals with
  | none => simp [take, hx] at htake
  | some found =>
      have hlive : found.1 = .live fiber := by simpa [take, hx] using htake
      exact hlive ▸ mem_of_exchangeShared hx

theorem token_mem_holdings :
    .token .handle fiber ∈ w.holdings ↔ exists n, (n, .live fiber) ∈ w.globals := by
  constructor
  · intro hmem
    rcases List.mem_flatMap.mp hmem with ⟨⟨n, k⟩, hentry, htoken⟩
    cases k with
    | empty => cases htoken
    | live c =>
        cases List.mem_singleton.mp htoken
        exact ⟨n, hentry⟩
  · intro hmem
    rcases hmem with ⟨n, hentry⟩
    exact List.mem_flatMap.mpr ⟨_, hentry, List.mem_singleton.mpr rfl⟩

end World

namespace State

variable {s : State} {contexts : List (ContextId × List Frame)} {below : List Frame}

/-! ## Frames of the main program -/

/-- A panic that nothing catches closes the frames of the main program, and is kept for the end. -/
theorem Sane.unwindsMain {captured : List Entry} {payload : Payload} {a : Activation}
    (hsane : s.Sane) (has : s.AsIn contexts) (hrun : s.control = .run)
    (hstack : s.stack = [.discarding captured (some (.panic payload)), .code a, .root .program])
    (hcaptured : captured.all Entry.isPlain = true) (hresult : a.flow.result = .empty)
    (hplain : a.blocks.all Block.isMild = true)
    (huncaught : forall b, b ∈ a.blocks -> forall swallow, b.kind ≠ .attempt swallow)
    (hmild : MildBelow contexts (stackHoldings s.stack)) :
    exists s' log, s'.control = .run ∧
      s'.stack = [.root (.draining drainRounds [] true (some payload))] ∧
        s.Removes (WaitsIn (some (.panic payload))) (HeldFrom contexts (stackHoldings s.stack)) log
          s' := by
  have hheld : stackHoldings s.stack = entryHoldings captured ++ a.holdings := by
    simp [hstack, Frame.holdings, Unwind.holdings]
  rw [hheld, mildBelow_append] at hmild
  have hothers : Abandons contexts := abandonsAll contexts
  rcases hothers.entries hsane has hcaptured hmild.1 hrun hstack with
    ⟨s₁, log₁, hrun₁, hstack₁, hremoves₁, -⟩
  rcases hothers.code (hsane.idles hremoves₁.idles) (has.sweeps hremoves₁.toSweeps) hresult hplain
    (fun _ _ => huncaught) hmild.2 hrun₁ hstack₁ with
    ⟨s₂, log₂, hrun₂, hstack₂, hremoves₂, -⟩
  have hstep : s₂.step =
      s₂.go s₂.world [.root (.draining drainRounds [] true (some payload))] := by
    rw [step_of_unwind hrun₂ hstack₂]
    simp only [unwindInto]
  have hleft : s₂.Removes (WaitsIn (some (.panic payload))) (fun _ => False) [] _ :=
    .single hstep (by simp [operation?, hrun₂, hstack₂]) rfl rfl World.gains_nil
  refine ⟨_, _, rfl, rfl, ((hremoves₁.trans hremoves₂).trans hleft).congr rfl fun c => ?_⟩
  rw [hheld, heldFrom_append, or_false]

/-! ## Shared slots -/

/-- A live handle that is found in a shared slot goes, and all that it leads to. -/
theorem Sane.drainsName {name : String} {names : List String} {rounds : Nat} {found : Bool}
    {panic : Option Payload} (hsane : s.Sane) (has : s.AsIn contexts)
    (hmild : MildBelow contexts s.world.holdings) (hrun : s.control = .run)
    (hstack : s.stack = .root (.draining rounds (name :: names) found panic) :: below) :
    exists s' gone, s'.control = .run ∧
      s'.stack = .root (.draining rounds names
        (found || decide ((s.world.take name).1 ≠ .empty)) panic) :: below ∧
      s'.world.globals = (s.world.take name).2.globals ∧ s.Sweeps (fun _ => True) gone s' ∧
        forall fiber c, (s.world.take name).1 = .live fiber ->
          ReflTransGen (HoldsIn contexts) fiber c -> gone c := by
  have hidle : s.operation? = none := by simp [operation?, hrun, hstack]
  generalize htake : s.world.take name = taken
  rcases taken with ⟨h, w⟩
  cases h with
  | empty =>
      have hstep : s.step = s.go w (.root (.draining rounds names found panic) :: below) := by
        simp only [step, hrun, run, hstack, runRoot, htake]
      refine ⟨_, _, rfl, ?_, rfl, .single hstep hidle rfl rfl, ?_⟩
      · simp
      · rintro fiber c ⟨⟩
  | live fiber =>
      have hstep : s.step = s.go w (.discarding (Handle.live fiber).entries none ::
          .root (.draining rounds names true panic) :: below) := by
        simp only [step, hrun, run, hstack, runRoot, htake]
      have hheld : .token .handle fiber ∈ s.world.holdings :=
        World.token_mem_holdings.mpr ⟨name, World.mem_of_take (by rw [htake])⟩
      have hfound : s.Sweeps (fun _ => True) (fun _ => False) _ := .single hstep hidle rfl rfl
      rcases abandonsAll contexts (hsane.idles hfound.idles) (has.sweeps hfound)
        (hmild fiber hheld) rfl rfl with ⟨s₁, hrun₁, hstack₁, hremoves⟩
      have hstep₁ : s₁.step =
          s₁.go s₁.world (.root (.draining rounds names true panic) :: below) := by
        simp only [step, hrun₁, run, hstack₁, runDiscarding]
      have hback : s₁.Sweeps (fun _ => True) (fun _ => False) _ :=
        .single hstep₁ (by simp [operation?, hrun₁, hstack₁]) rfl rfl
      refine ⟨{ s₁ with stack := .root (.draining rounds names true panic) :: below, control := .run },
        _, rfl, ?_, hremoves.world.globals,
        (hfound.trans (hremoves.toSweeps.mono fun _ _ => trivial)).trans hback, ?_⟩
      · simp
      · intro fiber' c heq hpath
        cases heq
        exact Or.inl (Or.inr hpath)

theorem mildBelow_of_subset {xs ys : List Holding} (h : MildBelow contexts ys)
    (hsub : forall c, .token .handle c ∈ xs -> .token .handle c ∈ ys) : MildBelow contexts xs :=
  fun c hc => h c (hsub c hc)

/--
A round goes through some shared slots.  Those that it has passed are empty, and what was there is
gone.  It has found something only if something was there.
-/
theorem Sane.drains {names : List String} {rounds : Nat} {found : Bool} {panic : Option Payload}
    (hsane : s.Sane) (has : s.AsIn contexts) (hmild : MildBelow contexts s.world.holdings)
    (honce : s.world.NamesOnce) (hrun : s.control = .run)
    (hstack : s.stack = .root (.draining rounds names found panic) :: below) :
    exists s' gone found', s'.control = .run ∧
      s'.stack = .root (.draining rounds [] found' panic) :: below ∧
      s'.world.NamesOnce ∧ s.Sweeps (fun _ => True) gone s' ∧
      (forall n k, (n, k) ∈ s'.world.globals -> k ≠ .empty -> n ∉ names ∧ (n, k) ∈ s.world.globals) ∧
      (forall n fiber c, n ∈ names -> (n, .live fiber) ∈ s.world.globals ->
        ReflTransGen (HoldsIn contexts) fiber c -> gone c) ∧
      ((forall n k, (n, k) ∈ s.world.globals -> k = .empty) -> found' = found) := by
  induction names generalizing s found with
  | nil =>
      exact ⟨s, _, found, hrun, hstack, honce, .refl, fun n k hmem _ => ⟨List.not_mem_nil, hmem⟩,
        nofun, fun _ => rfl⟩
  | cons name names ih =>
      rcases hsane.drainsName has hmild hrun hstack with
        ⟨s₁, gone₁, hrun₁, hstack₁, hglobals, hsweeps₁, hgone₁⟩
      -- What is left of the shared slots was there before, under other names.
      have hleft : forall n k, (n, k) ∈ s₁.world.globals -> k ≠ .empty ->
          n ≠ name ∧ (n, k) ∈ s.world.globals := by
        intro n k hmem hlive
        rw [hglobals] at hmem
        have hn : n ≠ name := by
          rintro rfl
          exact hlive (honce.take_left hmem)
        exact ⟨hn, (World.take_others hn).mp hmem⟩
      have hmild₁ : MildBelow contexts s₁.world.holdings := by
        refine mildBelow_of_subset hmild fun c hc => ?_
        rcases World.token_mem_holdings.mp hc with ⟨n, hmem⟩
        exact World.token_mem_holdings.mpr ⟨n, (hleft n _ hmem nofun).2⟩
      have honce₁ : s₁.world.NamesOnce := (honce.take name).of_globals hglobals
      rcases ih (hsane.idles hsweeps₁.idles) (has.sweeps hsweeps₁) hmild₁ honce₁ hrun₁ hstack₁ with
        ⟨s', gone', found', hrun', hstack', honce', hsweeps', hleft', hgone', hfound'⟩
      refine ⟨s', _, found', hrun', hstack', honce', hsweeps₁.trans hsweeps', ?_, ?_, ?_⟩
      · intro n k hmem hlive
        rcases hleft' n k hmem hlive with ⟨hn', hmem₁⟩
        rcases hleft n k hmem₁ hlive with ⟨hn, hmem₀⟩
        exact ⟨List.not_mem_cons_of_ne_of_not_mem hn hn', hmem₀⟩
      · intro n fiber c hn hmem hpath
        by_cases hname : n = name
        · exact Or.inl (hgone₁ fiber c (honce.take_eq (hname ▸ hmem)) hpath)
        · refine Or.inr (hgone' n fiber c ((List.mem_cons.mp hn).resolve_left hname) ?_ hpath)
          rw [hglobals]
          exact (World.take_others hname).mpr hmem
      · intro hempty
        have hnone : (s.world.take name).1 = .empty := by
          cases htake : (s.world.take name).1 with
          | empty => rfl
          | live fiber => exact hempty _ _ (World.mem_of_take htake)
        have hempty₁ : forall n k, (n, k) ∈ s₁.world.globals -> k = .empty := by
          intro n k hmem
          by_cases hk : k = .empty
          · exact hk
          · exact hempty n k (hleft n k hmem hk).2
        rw [hfound' hempty₁, hnone]
        simp

/--
At the end of a run all that the shared slots hold goes, and the rounds end with one that finds
nothing.
-/
theorem Sane.drainsAll {left : Nat} {panic : Option Payload} (hsane : s.Sane) (has : s.AsIn contexts)
    (hmild : MildBelow contexts s.world.holdings) (honce : s.world.NamesOnce)
    (hrun : s.control = .run) (hstack : s.stack = [.root (.draining (left + 2) [] true panic)]) :
    exists s' gone rounds, s'.control = .run ∧ s'.stack = [.root (.draining rounds [] false panic)] ∧
      s.Sweeps (fun _ => True) gone s' ∧
        forall c, HeldFrom contexts s.world.holdings c -> gone c := by
  have hround : forall {t : State} {left : Nat}, t.control = .run ->
      t.stack = [.root (.draining (left + 1) [] true panic)] ->
        t.Sweeps (fun _ => True) (fun _ => False)
          { t with stack := [.root (.draining left t.world.globalNames false panic)] } := by
    intro t left hrun hstack
    refine .single ?_ (by simp [operation?, hrun, hstack]) rfl rfl
    simp only [step, hrun, run, hstack, runRoot, go]
  have hfirst := hround hrun hstack
  rcases (hsane.idles hfirst.idles).drains (has.sweeps hfirst) hmild honce hrun rfl with
    ⟨s₁, gone₁, found₁, hrun₁, hstack₁, honce₁, hsweeps₁, hleft₁, hgone₁, -⟩
  have hempty : forall n k, (n, k) ∈ s₁.world.globals -> k = .empty := by
    intro n k hmem
    by_cases hk : k = .empty
    · exact hk
    · rcases hleft₁ n k hmem hk with ⟨hnot, hmem₀⟩
      exact absurd (World.mem_globalNames hmem₀) hnot
  have hgone : forall c, HeldFrom contexts s.world.holdings c -> gone₁ c := by
    intro c hheld
    rcases hheld with ⟨fiber, hfiber, hpath⟩
    rcases World.token_mem_holdings.mp hfiber with ⟨n, hmem⟩
    exact hgone₁ n fiber c (World.mem_globalNames hmem) hmem hpath
  have hsweeps := hfirst.trans hsweeps₁
  cases found₁ with
  | false => exact ⟨s₁, _, left + 1, hrun₁, hstack₁, hsweeps, fun c hc => Or.inr (hgone c hc)⟩
  | true =>
      -- One more round finds all slots empty.
      have hsecond := hround hrun₁ hstack₁
      have hmild₁ : MildBelow contexts s₁.world.holdings := by
        intro c hc
        rcases World.token_mem_holdings.mp hc with ⟨n, hmem⟩
        cases hempty n _ hmem
      rcases ((hsane.idles hsweeps.idles).idles hsecond.idles).drains
        ((has.sweeps hsweeps).sweeps hsecond) hmild₁ honce₁ hrun₁ rfl with
        ⟨s₂, gone₂, found₂, hrun₂, hstack₂, -, hsweeps₂, -, -, hfound₂⟩
      rw [hfound₂ hempty] at hstack₂
      exact ⟨s₂, _, left, hrun₂, hstack₂, (hsweeps.trans hsecond).trans hsweeps₂,
        fun c hc => Or.inl (Or.inl (Or.inr (hgone c hc)))⟩

end State

end Fibers
