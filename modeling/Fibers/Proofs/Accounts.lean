import Fibers.Proofs.Moves
import Mathlib.Data.List.Count

/-!
# Guards and stacks on the books

The books of the world are compared with what is there.  Every guard that was made has been dropped
or is held somewhere, and every stack that is lent out belongs to a fiber that is there.
-/

namespace Fibers

namespace State

variable {s s' : State} {lost : List ContextId} {need : Need} {c : ContextId} {label : String}

/-! ## Guards -/

theorem count_guard_made : s.made.count (.guard label) = s.guardsMade.count label :=
  List.count_map_of_injective _ _ (fun _ _ h => Holding.guard.inj h) _

theorem count_guard_gone : s.gone.count (.guard label) = s.guardsDropped.count label := by
  have htokens : (s.swallows.map (Holding.token .request)).count (.guard label) = 0 := by
    rw [List.count_eq_zero]
    simp
  rw [gone, List.count_append, htokens, Nat.add_zero]
  exact List.count_map_of_injective _ _ (fun _ _ h => Holding.guard.inj h) _

theorem Parks.guardsDropped {w : World} {stack : List Frame} {released : List Holding}
    (h : s.Parks w stack released) : s.guardsDropped = [] := by
  have hgone := h.quiet.1
  simp only [gone, List.append_eq_nil_iff, List.map_eq_nil_iff] at hgone
  exact hgone.1

theorem count_guard_tokens (xs : List (Need × ContextId)) :
    (tokens xs).count (.guard label) = 0 := by
  rw [List.count_eq_zero]
  simp [tokens]

theorem Move.count_guard (h : s.Sound lost) (hm : s.Move s') (label : String) :
    s'.holdings.count (.guard label) + s.guardsDropped.count label =
      s.holdings.count (.guard label) + s.guardsMade.count label := by
  rcases hm.count_holdings h with ⟨used, given, hcount, -⟩
  have hlabel := hcount (.guard label)
  rwa [count_guard_tokens, count_guard_tokens, count_guard_made, count_guard_gone] at hlabel

/-- What the world counts and logs of guards follows what is made and dropped. -/
theorem Move.guards (hm : s.Move s') :
    s'.world.books.dropped = s.guardsDropped ++ s.world.books.dropped ∧
      s'.world.liveGuards = s.world.liveGuards + s.guardsMade.length - s.guardsDropped.length := by
  cases hm with
  | stay ht => exact ⟨congrArg Books.dropped ht.books, congrArg Books.guards ht.books⟩
  | switch need hd => exact ⟨congrArg Books.dropped hd.books, congrArg Books.guards hd.books⟩
  | answer reply hcontrol | call hcontrol =>
      rw [guardsMade_landed hcontrol, guardsDropped_landed hcontrol]
      exact ⟨rfl, by simp [hop, topped]⟩
  | launch hl =>
      rw [hl.guardsDropped]
      exact ⟨hl.dropped, hl.guards.trans (Int.sub_zero _).symm⟩
  | release hcontrol hsource hr =>
      rw [guardsMade_landed hcontrol, guardsDropped_landed hcontrol]
      exact ⟨hr.dropped, by simpa using hr.guards⟩

/-! ## Stacks -/

/-- Whether the stack of a context has to go back to an allocator of the program's own. -/
def borrows (s : State) (c : ContextId) : Bool := (s.leaseAt c).any fun l => l.owner.isSome

/-- How many stacks of the program's own allocators are in use. -/
def stacksInUse (s : State) : Nat := (contextKeys s.contexts).countP s.borrows

theorem stacksInUse_congr (hkeys : contextKeys s'.contexts = contextKeys s.contexts)
    (hlease : s'.leaseAt = s.leaseAt) : s'.stacksInUse = s.stacksInUse := by
  have hborrows : s'.borrows = s.borrows := by
    funext c
    rw [borrows, hlease]
    rfl
  rw [stacksInUse, hkeys, hborrows]
  rfl

theorem Sound.stacksInUse_hop {w : World} {stack there there' : List Frame} {target : ContextId}
    {signal : Signal} (h : s.Sound lost) (hthere : s.parked? target = some there)
    (hneed : needOf there = some need) (hlease : leaseOf stack = s.lease?)
    (hlease' : leaseOf there' = leaseOf there) (hnot : forall record, signal ≠ .start record) :
    (s.hop w stack target there' signal).stacksInUse = s.stacksInUse := by
  have hne := h.ne_running hthere hneed
  apply stacksInUse_congr
  · simp only [State.hop, contextKeys_replaceStack]
  · exact leaseAt_hop w stack there' signal h.listed hthere hne hlease hlease' hnot

theorem stacksInUse_launched {w : World} {stack : List Frame} {fiber : ContextId}
    {record : Record} (h : s.Sound lost) (hnew : fiber ∉ contextKeys s.contexts)
    (hlease : leaseOf stack = s.lease?) :
    (s.launched w stack fiber record).stacksInUse =
      s.stacksInUse + if record.lease.owner.isSome then 1 else 0 := by
  have hleaseAt := leaseAt_launched w stack record h.listed hnew hlease
  have hkeys : contextKeys (s.launched w stack fiber record).contexts =
      fiber :: contextKeys s.contexts := by
    simp only [launched, State.hop, grown, contextKeys_replaceStack]
    rfl
  have hold : (contextKeys s.contexts).countP (s.launched w stack fiber record).borrows =
      s.stacksInUse := by
    apply List.countP_congr
    intro c hc
    have hcf : c ≠ fiber := by
      intro heq
      subst heq
      exact hnew hc
    rw [borrows, hleaseAt, if_neg hcf]
    rfl
  have hborrows : (s.launched w stack fiber record).borrows fiber = record.lease.owner.isSome := by
    rw [borrows, hleaseAt, if_pos rfl]
    rfl
  rw [stacksInUse, hkeys, List.countP_cons, hold, hborrows]

theorem Releases.stacksInUse {source : ContextId} {lease : Lease} (hr : s.Releases source lease s')
    (h : s.Sound lost) (hcontrol : s.control = .landed source .exit)
    (hsource : s.parked? source = some [.base (.exited lease)]) :
    s.stacksInUse = s'.stacksInUse + if lease.owner.isSome then 1 else 0 := by
  have hne := h.ne_running hsource (show needOf _ = some .remains from rfl)
  have hmem : source ∈ contextKeys s.contexts := mem_contextKeys.mpr ⟨_, hsource⟩
  have hborrows : s.borrows source = lease.owner.isSome := by
    rw [borrows, leaseAt_of_ne hne, hsource]
    rfl
  have hrest : s'.stacksInUse = ((contextKeys s.contexts).erase source).countP s.borrows := by
    rw [State.stacksInUse, hr.contexts, contextKeys_filter, h.keys.erase_eq_filter]
    have hsame : (contextKeys s.contexts).filter (fun d => d ≠ source) =
        (contextKeys s.contexts).filter (fun d => d != source) := by
      apply List.filter_congr
      intro d _
      by_cases hd : d = source <;> simp [hd]
    rw [hsame]
    apply List.countP_congr
    intro c hc
    have hcs : c ≠ source := by simpa using (List.mem_filter.mp hc).2
    rw [borrows, hr.leaseAt hcontrol hne, if_neg hcs]
    rfl
  have hall := (List.perm_cons_erase hmem).countP_eq s.borrows
  rw [List.countP_cons, hborrows, <- hrest] at hall
  exact hall

theorem Move.stacks (h : s.Sound lost) (hm : s.Move s') :
    s'.world.liveStacks - s.world.liveStacks = (s'.stacksInUse : Int) - s.stacksInUse := by
  cases hm with
  | stay ht =>
      have hsame := stacksInUse_congr (by rw [ht.contexts])
        (leaseAt_congr ht.running ht.contexts ht.lease)
      rw [hsame, show s'.world.liveStacks = s.world.liveStacks from congrArg Books.lent ht.books]
      omega
  | switch need hd hthere hneed =>
      rename_i w stack there target signal
      have hstacked := (h.parked _ _ (h.ne_running hthere hneed) hthere).1
      have hsame := h.stacksInUse_hop (w := w) hthere hneed hd.lease rfl
        (hd.not_start hneed hstacked)
      have hlent : w.liveStacks = s.world.liveStacks := congrArg Books.lent hd.books
      rw [hsame, State.hop, hlent]
      omega
  | answer reply hcontrol hprober =>
      rename_i prober query purpose a below
      have hsame : (s.hop s.world s.stack prober
          (.calling (.probe query (some reply) purpose) a :: below)
          (.message .handover)).stacksInUse = s.stacksInUse := by
        refine h.stacksInUse_hop hprober rfl ?_ ?_ ?_
        · simp [lease?, hcontrol]
        · rfl
        · simp
      rw [hsame, Int.sub_self]
      exact Int.sub_self _
  | launch hl hnew =>
      rename_i w stack fiber record
      rw [stacksInUse_launched h hnew hl.lease, launched, State.hop, hl.lent]
      cases record.lease.owner with
      | none => simp
      | some label =>
          simp only [Option.isSome_some, if_true]
          omega
  | call hcontrol hsource =>
      rename_i source host f target a below
      have hsame : (s.topped source f
          (.calling (.resume host none target) a :: below)).stacksInUse = s.stacksInUse := by
        apply stacksInUse_congr
        · simp only [topped, contextKeys_replaceStack]
        · exact leaseAt_topped hsource hcontrol
      rw [hsame, Int.sub_self]
      exact Int.sub_self _
  | release hcontrol hsource hr =>
      rename_i source lease
      rw [hr.stacksInUse h hcontrol hsource, hr.lent]
      cases lease.owner with
      | none => simp
      | some label =>
          simp only [Option.isSome_some, if_true]
          omega

end State

/-! ## Whole runs -/

/-- The guards that were made in the given states. -/
def madeIn (past : List State) : List String := past.flatMap State.guardsMade

/-- The guards that were dropped in the given states. -/
def droppedIn (past : List State) : List String := past.flatMap State.guardsDropped

/-- The books agree with what has happened and with what is there. -/
structure State.Audited (past : List State) (s : State) : Prop where
  logged : s.world.log.filterMap LogEntry.guard? = droppedIn past
  guards : s.world.liveGuards = (madeIn past).length - (droppedIn past).length
  held : forall label, (madeIn past).count label =
    (droppedIn past).count label + s.holdings.count (.guard label)
  lent : s.world.liveStacks = s.stacksInUse

theorem Program.Reaches.audited {p : Program} {past : List State} {s : State}
    (h : p.Reaches past s) : s.Audited past := by
  induction h with
  | start =>
      constructor
      · rfl
      · rfl
      · intro label
        simp [madeIn, droppedIn, State.holdings, State.pool, State.parkedHoldings, Program.start,
          World.holdings, Control.holdings, Frame.holdings, Activation.ofCode,
          Activation.holdings, Block.holdings]
      · have hlease : p.start.borrows mainContext = false := by
          simp [State.borrows, State.leaseAt, Program.start, State.lease?, leaseOf]
        have hkeys : contextKeys p.start.contexts = [mainContext] := rfl
        rw [State.stacksInUse, hkeys, List.countP_cons, hlease]
        rfl
  | step hbefore hstep ih =>
      have hsound := hbefore.sound
      have hmove := (hsound.move hstep).1
      rcases hmove.guards with ⟨hdropped, hguards⟩
      constructor
      · have hlogged := ih.logged
        rw [droppedIn, List.flatMap_cons]
        exact hdropped.trans (congrArg _ hlogged)
      · have hbooked := ih.guards
        simp only [madeIn, droppedIn, List.flatMap_cons, List.length_append] at hbooked ⊢
        omega
      · intro label
        have hheld := ih.held label
        have hcount := hmove.count_guard hsound label
        simp only [madeIn, droppedIn, List.flatMap_cons, List.count_append] at hheld ⊢
        omega
      · have hlent := ih.lent
        have hstacks := hmove.stacks hsound
        omega

end Fibers
