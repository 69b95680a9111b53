import Fibers.Proofs.Moves

/-!
# How resume calls end

A resume call is told by its context and by how many frames lie below it.  It ends when control
comes back to its context: by a return, with a handle or without, or by an unwind.  Over a whole run
the books are kept of all calls at one place: those that were opened are those that have returned,
those that were unwound, and the one that may still be open.
-/

namespace Fibers

/-! ## Places on a stack -/

theorem lt_length_of_mem_openCalls {stack : List Frame} {k : Nat} (h : k ∈ openCalls stack) :
    k < stack.length := by
  induction stack with
  | nil => cases h
  | cons f below ih =>
      rw [List.length_cons]
      unfold openCalls at h
      split at h
      · rcases List.mem_cons.mp h with rfl | hbelow
        · exact Nat.lt_succ_self _
        · exact Nat.lt_succ_of_lt (ih hbelow)
      · exact Nat.lt_succ_of_lt (ih h)

theorem openCalls_nodup (stack : List Frame) : (openCalls stack).Nodup := by
  induction stack with
  | nil => exact List.Pairwise.nil
  | cons f below ih =>
      unfold openCalls
      split
      · refine List.nodup_cons.mpr ⟨?_, ih⟩
        intro hmem
        exact Nat.lt_irrefl _ (lt_length_of_mem_openCalls hmem)
      · exact ih

namespace State

variable {s s' : State} {c : ContextId} {k : Nat}

/-! ## Ends of calls -/

/-- The resume calls that the next step returns from. -/
def callsReturned (s : State) : List Nat :=
  match s.control, s.stack with
  | .landed _ (.message .handover), .calling (.resume _ _ _) _ :: below
  | .landed _ (.message .farewell), .calling (.resume _ _ _) _ :: below => [below.length]
  | _, _ => []

/-- The resume calls that the next step unwinds. -/
def callsUnwound (s : State) : List Nat :=
  match s.control, s.stack with
  | .landed _ (.message .eviction), .calling (.resume _ _ _) _ :: below => [below.length]
  | _, _ => []

theorem callsEnded_eq (s : State) : s.callsEnded = s.callsReturned ++ s.callsUnwound := by
  unfold callsEnded callsReturned callsUnwound
  split <;> simp_all

def openAt (s : State) (c : ContextId) : List Nat :=
  openCalls (if c = s.running then s.stack else (s.parked? c).getD [])

theorem openAt_nodup (s : State) (c : ContextId) : (s.openAt c).Nodup := openCalls_nodup _

theorem openAt_running : s.openAt s.running = openCalls s.stack := by
  simp [openAt]

theorem openAt_parked {stack : List Frame} (hc : c ≠ s.running) (h : s.parked? c = some stack) :
    s.openAt c = openCalls stack := by
  simp [openAt, hc, h]

theorem openAt_none (hc : c ≠ s.running) (h : s.parked? c = none) : s.openAt c = [] := by
  simp [openAt, hc, h, openCalls]

/-- Whether a call at a place is open now and was not before. -/
def opens (s s' : State) (c : ContextId) (k : Nat) : Bool :=
  decide (k ∉ s.openAt c) && decide (k ∈ s'.openAt c)

def returns (s : State) (c : ContextId) (k : Nat) : Bool :=
  decide (c = s.running) && decide (k ∈ s.callsReturned)

def unwinds (s : State) (c : ContextId) (k : Nat) : Bool :=
  decide (c = s.running) && decide (k ∈ s.callsUnwound)

/-! ## One step -/

theorem openAt_congr (s s' : State) (hrunning : s'.running = s.running) (hparked : s'.parked? c = s.parked? c)
    (hstack : c = s.running -> openCalls s'.stack = openCalls s.stack) :
    s'.openAt c = s.openAt c := by
  by_cases hc : c = s.running
  · subst hc
    rw [openAt_running, <- hstack rfl, <- hrunning, openAt_running]
  · simp only [openAt, hrunning, hparked, if_neg hc]

theorem openAt_hop {there : List Frame} {target : ContextId} (w : World)
    (stack there' : List Frame) (signal : Signal) (hlisted : s.parked? s.running = some [])
    (hthere : s.parked? target = some there) (hne : target ≠ s.running)
    (hsame : openCalls there' = openCalls there) (hmore : openCalls s.stack <:+ openCalls stack)
    (c : ContextId) : s.openAt c <:+ (s.hop w stack target there' signal).openAt c := by
  by_cases hc : c = target
  · subst hc
    have hafter : (s.hop w stack c there' signal).openAt c = openCalls there' := openAt_running
    simp only [hafter, hsame, openAt_parked hne hthere, List.suffix_refl]
  · have hct : c ≠ (s.hop w stack target there' signal).running := hc
    have hparked := parked?_hop w stack there' signal hlisted hthere hne c
    rw [if_neg hc] at hparked
    by_cases hrunning : c = s.running
    · rw [if_pos hrunning] at hparked
      rw [openAt_parked hct hparked, hrunning, openAt_running]
      exact hmore
    · rw [if_neg hrunning] at hparked
      have hsame : (s.hop w stack target there' signal).openAt c = s.openAt c := by
        simp only [openAt, if_neg hct, hparked, if_neg hrunning]
      simp only [hsame, List.suffix_refl]

theorem Steady.openAt (ht : s.Steady s') (hc : c ≠ s.running) : s'.openAt c = s.openAt c := by
  apply openAt_congr s s' ht.running
  · simp only [parked?, ht.contexts]
  · exact fun heq => absurd heq hc

theorem openAt_grown {fiber : ContextId} (hlisted : s.parked? s.running = some [])
    (hnew : fiber ∉ contextKeys s.contexts) (c : ContextId) :
    s.openAt c <:+ (s.grown fiber).openAt c := by
  by_cases hc : c = fiber
  · subst hc
    have hnone : s.parked? c = none := by
      cases hlookup : s.parked? c with
      | none => rfl
      | some there => exact absurd (mem_contextKeys.mpr ⟨there, hlookup⟩) hnew
    rw [openAt_none (ne_running_of_new hlisted hnew) hnone]
    exact List.nil_suffix
  · have hsame : (s.grown fiber).openAt c = s.openAt c :=
      openAt_congr s (s.grown fiber) rfl (parked?_grown hc) fun _ => rfl
    simp only [hsame, List.suffix_refl]

theorem openAt_topped {source : ContextId} {host : Host} {f : Closure} {target : SlotName}
    {a : Activation} {below : List Frame} (hne : source ≠ s.running)
    (hsource : s.parked? source = some (.calling (.resume host (some f) target) a :: below))
    (c : ContextId) :
    (s.topped source f (.calling (.resume host none target) a :: below)).openAt c =
      s.openAt c := by
  have hparked := parked?_topped hsource c
  by_cases hc : c = source
  · have hct :
        c ≠ (s.topped source f (.calling (.resume host none target) a :: below)).running := by
      rw [hc]
      exact hne
    rw [if_pos hc] at hparked
    rw [openAt_parked hct hparked, hc, openAt_parked hne hsource]
    rfl
  · rw [if_neg hc] at hparked
    exact openAt_congr s (s.topped source f _) rfl hparked fun _ => rfl

theorem Releases.openAt {source : ContextId} {lease : Lease} (hr : s.Releases source lease s')
    (hsource : s.parked? source = some [.base (.exited lease)]) (hne : source ≠ s.running)
    (c : ContextId) : s.openAt c <:+ s'.openAt c := by
  by_cases hc : c = source
  · subst hc
    rw [openAt_parked hne hsource]
    exact List.nil_suffix
  · have hsame : s'.openAt c = s.openAt c := by
      apply openAt_congr s s' hr.running
      · rw [hr.parked?, if_neg hc]
      · rw [hr.stack]
        exact fun _ => rfl
    simp only [hsame, List.suffix_refl]

/-- The running context ends or opens calls of its own; all other calls stay as they are. -/
theorem Move.openAt {lost : List ContextId} (h : s.Sound lost) (hm : s.Move s') (c : ContextId) :
    (c = s.running ∧ s.openAt c = s.callsEnded ++ s'.openAt c) ∨
      ((c = s.running -> s.callsEnded = []) ∧ s.openAt c <:+ s'.openAt c) := by
  cases hm with
  | stay ht =>
      by_cases hc : c = s.running
      · left
        subst hc
        refine ⟨rfl, ?_⟩
        rw [openAt_running, ht.calls, <- ht.running, openAt_running]
      · right
        refine ⟨fun heq => absurd heq hc, ?_⟩
        simp only [ht.openAt hc, List.suffix_refl]
  | switch need hd hthere hneed =>
      right
      refine ⟨fun _ => hd.quiet.2, ?_⟩
      exact openAt_hop _ _ _ _ h.listed hthere (h.ne_running hthere hneed) rfl hd.calls c
  | answer reply hcontrol hprober =>
      rename_i prober query purpose a below
      right
      refine ⟨fun _ => by simp [callsEnded, hcontrol], ?_⟩
      have hne := h.ne_running hprober (show needOf _ = some .reply from rfl)
      exact openAt_hop _ _ (.calling (.probe query (some reply) purpose) a :: below) _ h.listed
        hprober hne rfl (List.suffix_refl _) c
  | launch hl hnew =>
      right
      refine ⟨fun _ => hl.quiet.2, ?_⟩
      have hne := ne_running_of_new h.listed hnew
      apply (openAt_grown h.listed hnew c).trans
      exact openAt_hop _ _ _ _ (listed_grown h.listed hnew) List.lookup_cons_self hne rfl hl.calls c
  | call hcontrol hsource =>
      right
      refine ⟨fun _ => by simp [callsEnded, hcontrol], ?_⟩
      have hne := h.ne_running hsource (show needOf _ = some .call from rfl)
      simp only [openAt_topped hne hsource c, List.suffix_refl]
  | release hcontrol hsource hr =>
      right
      refine ⟨fun _ => by simp [callsEnded, hcontrol], ?_⟩
      exact hr.openAt hsource (h.ne_running hsource (show needOf _ = some .remains from rfl)) c

/-! ## Whole runs -/

/-- How often a call at a place was opened between the given states. -/
def openedIn (c : ContextId) (k : Nat) : List State -> State -> Nat
  | [], _ => 0
  | t :: past, s => openedIn c k past t + if t.opens s c k then 1 else 0

/-- How often a call at a place has returned in the given states. -/
def returnedIn (c : ContextId) (k : Nat) (past : List State) : Nat :=
  past.countP (State.returns · c k)

/-- How often a call at a place was unwound in the given states. -/
def unwoundIn (c : ContextId) (k : Nat) (past : List State) : Nat :=
  past.countP (State.unwinds · c k)

theorem Move.balance {lost : List ContextId} (h : s.Sound lost) (hm : s.Move s') (c : ContextId)
    (k : Nat) :
    (if s.opens s' c k then 1 else 0) + (if k ∈ s.openAt c then 1 else 0) =
      (if s.returns c k then 1 else 0) + (if s.unwinds c k then 1 else 0) +
        if k ∈ s'.openAt c then 1 else 0 := by
  have hbefore := s.openAt_nodup c
  have hafter := s'.openAt_nodup c
  rcases hm.openAt h c with ⟨rfl, hopen⟩ | ⟨hended, hopen⟩
  · rw [callsEnded_eq] at hopen
    have hparts := hbefore
    rw [hopen] at hparts
    have hreturned : s.callsReturned.Nodup :=
      hparts.sublist ((List.sublist_append_left _ _).trans (List.sublist_append_left _ _))
    have hunwound : s.callsUnwound.Nodup :=
      hparts.sublist ((List.sublist_append_right _ _).trans (List.sublist_append_left _ _))
    have hopens : s.opens s' s.running k = false := by
      simp only [opens, hopen, List.mem_append]
      grind
    simp only [hopens, returns, unwinds, decide_true, Bool.true_and, decide_eq_true_eq,
      Bool.false_eq_true, if_false]
    rw [<- hbefore.count, <- hafter.count, <- hreturned.count, <- hunwound.count,
      hopen, List.count_append, List.count_append]
    omega
  · have hreturns : s.returns c k = false := by
      by_cases hrunning : c = s.running
      · have hnone := hended hrunning
        rw [callsEnded_eq, List.append_eq_nil_iff] at hnone
        simp [returns, hnone.1]
      · simp [returns, hrunning]
    have hunwinds : s.unwinds c k = false := by
      by_cases hrunning : c = s.running
      · have hnone := hended hrunning
        rw [callsEnded_eq, List.append_eq_nil_iff] at hnone
        simp [unwinds, hnone.2]
      · simp [unwinds, hrunning]
    have hkeeps : k ∈ s.openAt c -> k ∈ s'.openAt c := fun hk => hopen.subset hk
    simp only [hreturns, hunwinds, opens, Bool.and_eq_true, decide_eq_true_eq, Bool.false_eq_true,
      if_false]
    grind

end State

/-- Every call that was opened has returned, was unwound, or is open: one of these, and once. -/
theorem Program.Reaches.calls {p : Program} {past : List State} {s : State}
    (h : p.Reaches past s) (c : ContextId) (k : Nat) :
    State.openedIn c k past s =
      State.returnedIn c k past + State.unwoundIn c k past + if k ∈ s.openAt c then 1 else 0 := by
  induction h with
  | start =>
      have hnone : k ∉ p.start.openAt c := by
        simp only [State.openAt, State.parked?, Program.start, List.lookup_cons]
        grind [openCalls, Frame.isResume]
      simp [State.openedIn, State.returnedIn, State.unwoundIn, hnone]
  | step hbefore hstep ih =>
      have hsound := hbefore.sound
      have hbalance := (hsound.move hstep).1.balance hsound c k
      simp only [State.openedIn, State.returnedIn, State.unwoundIn, List.countP_cons] at ih ⊢
      omega

end Fibers
