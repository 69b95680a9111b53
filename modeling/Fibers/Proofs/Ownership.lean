import Fibers.Proofs.Calls

/-!
# Handles are linear

At any time one context runs.  Every other one is suspended, and there is one way to reach it: a
handle if it can be resumed, and the forced unwind that it has asked for if it waits in a drop.
Only where such an unwind was discarded on its way is there none.
-/

namespace Fibers

/-! ## What frames hold -/

/-- Handles and requesters, which are all that can be held for long. -/
def KeptOnly (xs : List Holding) : Prop :=
  forall need c, .token need c ∈ xs -> need = .handle ∨ need = .request

namespace KeptOnly

theorem nil : KeptOnly [] := by
  intro need c h
  cases h

theorem append {xs ys : List Holding} (hxs : KeptOnly xs) (hys : KeptOnly ys) :
    KeptOnly (xs ++ ys) := by
  intro need c h
  rcases List.mem_append.mp h with hmem | hmem
  · exact hxs need c hmem
  · exact hys need c hmem

theorem flatMap {α : Type} {xs : List α} {f : α -> List Holding}
    (h : forall a, a ∈ xs -> KeptOnly (f a)) : KeptOnly (xs.flatMap f) := by
  intro need c hmem
  rcases List.mem_flatMap.mp hmem with ⟨a, ha, htoken⟩
  exact h a ha need c htoken

theorem handle (h : Handle) : KeptOnly h.holdings := by
  cases h <;> simp [KeptOnly, Handle.holdings]

theorem entries (es : List Entry) : KeptOnly (entryHoldings es) := by
  apply flatMap
  intro e _
  cases e with
  | slot name h => exact handle h
  | guard label onDrop => simp [KeptOnly, Entry.holdings]

theorem code (a : Activation) : KeptOnly a.holdings :=
  append (handle _) (flatMap fun b _ => entries b.entries)

theorem unwind (cause : Unwind) : KeptOnly cause.holdings := by
  cases cause <;> simp [KeptOnly, Unwind.holdings]

theorem call (call : Call) : KeptOnly call.holdings := by
  cases call with
  | create slot | failBuild cause => exact nil
  | probe query reply purpose =>
      cases purpose with
      | question question slot => exact nil
      | check switch onTop => exact entries _
  | resume host onTop target => exact entries _
  | refuse refusal slot onRefusal => exact handle _
  | store pending n => exact flatMap fun entry _ => handle entry.2

theorem frame (f : Frame) : KeptOnly f.holdings := by
  cases f with
  | code a => exact code a
  | calling c a => exact append (call c) (code a)
  | discarding es cause => exact append (entries es) (flatMap fun u _ => unwind u)
  | dropping | onTop source | root stage => exact nil
  | base stage =>
      cases stage with
      | unborn | busy lease | exited lease => exact nil
      | idle record => exact entries _
      | leaving lease ending =>
          cases ending <;> simp [KeptOnly, Frame.holdings, FiberStage.holdings, Ending.holdings]

theorem stack (stack : List Frame) : KeptOnly (stackHoldings stack) := flatMap fun f _ => frame f

theorem world (w : World) : KeptOnly w.holdings := flatMap fun entry _ => handle entry.2

theorem parked (contexts : List (ContextId × List Frame)) :
    KeptOnly (State.parkedHoldings contexts) :=
  flatMap fun entry _ => stack entry.2

end KeptOnly

namespace State

variable {s s' : State} {c : ContextId} {need : Need} {lost : List ContextId}

theorem landed_of_token (hhandle : need ≠ .handle) (hrequest : need ≠ .request)
    (h : .token need c ∈ s.control.holdings) : exists signal, s.control = .landed c signal := by
  cases hcontrol : s.control with
  | run =>
      rw [hcontrol] at h
      cases h
  | landed source signal =>
      rw [hcontrol] at h
      suffices hc : c = source by exact ⟨signal, by rw [hc]⟩
      cases signal with
      | message m =>
          cases m <;> simp_all [Control.holdings, Signal.holdings]
      | onTop | exit => simp_all [Control.holdings, Signal.holdings]
      | start record =>
          simp only [Control.holdings, Signal.holdings, List.mem_cons, Holding.token.injEq] at h
          rcases h with h | h
          · exact h.2
          · have hkept : KeptOnly (record.toList.flatMap Record.holdings) :=
              .flatMap fun r _ => .entries _
            rcases hkept need c h with heq | heq
            · exact absurd heq hhandle
            · exact absurd heq hrequest

/-- All other tokens are those of switches under way. -/
theorem control_of_token (hhandle : need ≠ .handle) (hrequest : need ≠ .request)
    (h : .token need c ∈ s.holdings) : .token need c ∈ s.control.holdings := by
  have hkept : KeptOnly (s.world.holdings ++ stackHoldings s.stack) :=
    .append (.world _) (.stack _)
  simp only [holdings, pool, List.mem_append] at h
  rcases h with (h | h) | h
  · rcases hkept need c (List.mem_append.mpr h) with heq | heq
    · exact absurd heq hhandle
    · exact absurd heq hrequest
  · exact h
  · rcases KeptOnly.parked _ need c h with heq | heq
    · exact absurd heq hhandle
    · exact absurd heq hrequest

/-! ## References -/

/-- How many handles name a context, wherever they are. -/
def handlesOf (s : State) (c : ContextId) : Nat := s.holdings.count (.token .handle c)

/-- How many forced unwinds are under way for a context, wherever they have come to. -/
def requestsOf (s : State) (c : ContextId) : Nat := s.holdings.count (.token .request c)

/-- Waiting to be resumed: before the body of a fiber, or in a resume call of the topmost code. -/
def AtRest (stack : List Frame) : Prop :=
  (exists record, stack = [.base (.idle record)]) ∨
    exists host target a below, stack = .calling (.resume host none target) a :: below

theorem AtRest.ne_nil {stack : List Frame} (h : AtRest stack) : stack ≠ [] := by
  rcases h with ⟨record, rfl⟩ | ⟨host, target, a, below, rfl⟩ <;> exact List.cons_ne_nil _ _

/-- Waiting for a fiber to be gone that was abandoned here. -/
def InDropOf (stack : List Frame) : Prop := exists below, stack = .dropping :: below

namespace Sound

theorem atRest_iff (h : s.Sound lost) {stack : List Frame} (hc : c ≠ s.running)
    (hstack : s.parked? c = some stack) : needOf stack = some .handle ↔ AtRest stack := by
  constructor
  · intro hneed
    rcases needOf_handle hneed with hresume | ⟨record, below, rfl⟩
    · exact Or.inr hresume
    · have hbelow := (h.parked c _ hc hstack).1.2.2
      exact Or.inl ⟨record, by rw [hbelow]⟩
  · intro hrest
    rcases hrest with ⟨record, rfl⟩ | ⟨host, target, a, below, rfl⟩
    · rfl
    · rfl

theorem count_token (h : s.Sound lost) {stack : List Frame} (hstack : s.parked? c = some stack)
    (need : Need) :
    s.holdings.count (.token need c) +
        (lost.map (Holding.token .request)).count (.token need c) =
      if needOf stack = some need then 1 else 0 := by
  rw [h.balance, h.count_awaited, need?, hstack]
  rfl

end Sound

theorem count_lost :
    (lost.map (Holding.token .request)).count (.token .request c) = lost.count c := by
  induction lost with
  | nil => rfl
  | cons d rest ih => simp [List.count_cons, ih]

theorem count_lost_of_ne (h : need ≠ .request) :
    (lost.map (Holding.token .request)).count (.token need c) = 0 := by
  rw [List.count_eq_zero]
  simp [h.symm]

/-! ## Farewells -/

/-- A context that is told that its peer is gone goes on by itself. -/
theorem run_of_farewell {source : ContextId} (hcontrol : s.control = .landed source (.message .farewell))
    (hstep : s.step = .active s') : s'.control = .run := by
  simp only [step, hcontrol, land, receive] at hstep
  split at hstep
  case h_6 =>
    unfold callBody at hstep
    split at hstep <;> cases hstep
    rfl
  all_goals
    cases hstep
    try rfl

theorem Sound.handlesOf_farewell {source : ContextId} (h : s.Sound lost)
    (hcontrol : s.control = .landed source (.message .farewell)) (hstep : s.step = .active s')
    (c : ContextId) : s'.handlesOf c = s.handlesOf c := by
  have hrun := run_of_farewell hcontrol hstep
  cases (h.move hstep).1 with
  | stay ht =>
      have hpool := ht.balance (.token .handle c)
      have hgone : (s.swallows.map (Holding.token .request)).count (.token .handle c) = 0 :=
        count_lost_of_ne (by decide)
      rw [count_made, count_gone, hgone] at hpool
      simp only [handlesOf, holdings, List.count_append, ht.contexts]
      omega
  | switch | answer | launch => cases hrun
  | call hother | release hother =>
      rw [hcontrol] at hother
      cases hother

/-! ## All states -/

/--
What linearity says of a state.  The past tells which forced unwinds were discarded, and which calls
have ended.
-/
structure Linear (past : List State) (s : State) : Prop where
  /-- No context is listed twice, and the running one is among them. -/
  one : (contextKeys s.contexts).Nodup ∧ s.running ∈ contextKeys s.contexts
  /-- A context stays listed until its fiber is over. -/
  kept : forall s' c, s.step = .active s' -> c ∈ contextKeys s.contexts ->
    c ∉ contextKeys s'.contexts -> exists lease, s.parked? c = some [.base (.exited lease)]
  /-- A context that is not running is suspended, or control is on its way from it. -/
  suspended : forall c stack, c ≠ s.running -> s.parked? c = some stack ->
    AtRest stack ∨ InDropOf stack ∨
      (exists signal, s.control = .landed c signal) ∧ s.handlesOf c = 0 ∧ s.requestsOf c = 0
  atRest : forall c stack, c ≠ s.running -> s.parked? c = some stack -> AtRest stack ->
    s.handlesOf c = 1 ∧ s.requestsOf c = 0
  inDrop : forall c stack, c ≠ s.running -> s.parked? c = some stack -> InDropOf stack ->
    s.handlesOf c = 0 ∧
      (s.requestsOf c = 1 ∧ c ∉ lostIn past ∨ s.requestsOf c = 0 ∧ c ∈ lostIn past)
  /-- A handle names a context that is there, does not run, and can be resumed. -/
  named : forall c, 0 < s.handlesOf c ->
    c ≠ s.running ∧ exists stack, s.parked? c = some stack ∧ AtRest stack
  /-- No handle comes of a message whose sender has left none. -/
  farewell : forall source s', s.control = .landed source (.message .farewell) ->
    s.step = .active s' -> forall c, s'.handlesOf c = s.handlesOf c
  /-- Each call that was opened has returned, or was unwound, or is still open. -/
  calls : forall c k, openedIn c k past s =
    returnedIn c k past + unwoundIn c k past + if k ∈ s.openAt c then 1 else 0

theorem Move.kept (hm : s.Move s') (hc : c ∈ contextKeys s.contexts)
    (hgone : c ∉ contextKeys s'.contexts) :
    exists lease, s.parked? c = some [.base (.exited lease)] := by
  cases hm with
  | stay ht =>
      rw [ht.contexts] at hgone
      exact absurd hc hgone
  | switch | answer | call =>
      simp only [hop, topped, contextKeys_replaceStack] at hgone
      exact absurd hc hgone
  | launch =>
      simp only [launched, hop, grown, contextKeys_replaceStack] at hgone
      exact absurd (List.mem_cons_of_mem _ hc) hgone
  | release hcontrol hsource hr =>
      rename_i source lease
      rw [hr.contexts, contextKeys_filter, List.mem_filter] at hgone
      have heq : c = source := by
        by_cases heq : c = source
        · exact heq
        · exact absurd ⟨hc, decide_eq_true heq⟩ hgone
      rw [heq]
      exact ⟨lease, hsource⟩

theorem Sound.suspended (h : s.Sound lost) {stack : List Frame} (hc : c ≠ s.running)
    (hstack : s.parked? c = some stack) :
    AtRest stack ∨ InDropOf stack ∨
      (exists signal, s.control = .landed c signal) ∧ s.handlesOf c = 0 ∧ s.requestsOf c = 0 := by
  have hcount := h.count_token hstack
  cases hneed : needOf stack with
  | none => exact absurd hneed (h.parked c stack hc hstack).2
  | some need =>
      rw [hneed] at hcount
      by_cases hhandle : need = .handle
      · subst hhandle
        exact Or.inl ((h.atRest_iff hc hstack).mp hneed)
      · by_cases hrequest : need = .request
        · subst hrequest
          exact Or.inr (Or.inl (needOf_request hneed))
        · right
          right
          have htoken := hcount need
          rw [count_lost_of_ne hrequest, if_pos rfl, Nat.add_zero] at htoken
          have hmem : .token need c ∈ s.holdings := List.count_pos_iff.mp (by omega)
          have hhandles := hcount .handle
          have hrequests := hcount .request
          simp only [Option.some.injEq, hhandle, hrequest, if_false] at hhandles hrequests
          refine ⟨landed_of_token hhandle hrequest (control_of_token hhandle hrequest hmem), ?_, ?_⟩
          · simp only [handlesOf]
            omega
          · simp only [requestsOf]
            omega

end State

/-- In every state of a run, handles and pending unwinds are linear. -/
theorem linear_ownership {p : Program} {past : List State} {s : State}
    (h : p.Reaches past s) : s.Linear past := by
  have hsound := h.sound
  constructor
  · exact ⟨hsound.keys, mem_contextKeys.mpr ⟨[], hsound.listed⟩⟩
  · exact fun s' c hstep hc hgone => (hsound.move hstep).1.kept hc hgone
  · exact fun c stack hc hstack => hsound.suspended hc hstack
  · intro c stack hc hstack hrest
    have hneed := (hsound.atRest_iff hc hstack).mpr hrest
    have hhandle := hsound.count_token hstack .handle
    have hrequest := hsound.count_token hstack .request
    rw [hneed, State.count_lost_of_ne (by decide)] at hhandle
    rw [hneed] at hrequest
    simp only [State.handlesOf, State.requestsOf]
    grind
  · intro c stack hc hstack hdrop
    rcases hdrop with ⟨below, rfl⟩
    have hhandle := hsound.count_token hstack .handle
    have hrequest := hsound.count_token hstack .request
    rw [State.count_lost_of_ne (by decide)] at hhandle
    rw [State.count_lost] at hrequest
    simp only [needOf, State.handlesOf, State.requestsOf, Option.some.injEq, reduceCtorEq,
      if_true, if_false] at hhandle hrequest ⊢
    refine ⟨hhandle, ?_⟩
    by_cases hlost : c ∈ lostIn past
    · have hpos := List.count_pos_iff.mpr hlost
      exact Or.inr ⟨by omega, hlost⟩
    · have hzero := List.count_eq_zero.mpr hlost
      exact Or.inl ⟨by omega, hlost⟩
  · intro c hhandle
    rcases hsound.parked_of_token hhandle with ⟨stack, hstack, hneed⟩
    have hc := hsound.ne_running hstack hneed
    exact ⟨hc, stack, hstack, (hsound.atRest_iff hc hstack).mp hneed⟩
  · exact fun source s' hcontrol hstep c => hsound.handlesOf_farewell hcontrol hstep c
  · exact fun c k => h.calls c k

/-- There are such states, here one with a fiber that waits for its first call. -/
theorem linear_ownership_of_oneFiber :
    exists past s, Program.oneFiber.Reaches past s ∧ s.control = .run ∧
      contextKeys s.contexts = [1, mainContext] ∧ s.Linear past := by
  have hafter : exists s, Config.after 4 (.active Program.oneFiber.start) = .active s ∧
      s.control = .run ∧ contextKeys s.contexts = [1, mainContext] :=
    ⟨_, rfl, rfl, rfl⟩
  rcases hafter with ⟨s, hs, hrun, hkeys⟩
  rcases Program.after_eq_active.mp hs with ⟨past, -, hreach⟩
  exact ⟨past, s, hreach, hrun, hkeys, linear_ownership hreach⟩

end Fibers
