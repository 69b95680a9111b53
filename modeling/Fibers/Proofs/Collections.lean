import Fibers.Proofs.Comparison
import Fibers.Proofs.Forest
import Fibers.Proofs.Slots

/-!
# Collections of handles

No two slots hold handles of the same context, so in a set built of the handles in different slots
only empty ones can meet an equal.  Nothing is dropped that is alive: after the operation every slot
reads as before.
-/

namespace Fibers

namespace State

variable {s t : State} {lost : List ContextId} {a : Activation} {slots : List SlotName}
  {c d : ContextId} {slot other : SlotName}

/-! ## Different slots -/

/-- Code that some context is running, or would go on with. -/
def HasCode (s : State) (a : Activation) : Prop :=
  exists c stack, s.stackOf c = some stack ∧
    (.code a ∈ stack ∨ exists call, .calling call a ∈ stack)

theorem HasCode.running {below : List Frame} (h : s.stack = .code a :: below) : s.HasCode a :=
  ⟨s.running, s.stack, stackOf_running, Or.inl (h ▸ List.mem_cons_self)⟩

theorem count_frame_le {frame : Frame} {stack : List Frame} (h : frame ∈ stack) (x : Holding) :
    frame.holdings.count x ≤ (stackHoldings stack).count x := by
  rcases List.append_of_mem h with ⟨above, below, rfl⟩
  simp only [stackHoldings, List.flatMap_append, List.flatMap_cons, List.count_append]
  omega

/-- What code can lay its hands on is held only once in the whole state. -/
theorem HasCode.count_le (h : s.HasCode a) (x : Holding) :
    (Scene.mk s.world a).holdings.count x ≤ s.holdings.count x := by
  rcases h with ⟨c, stack, hstack, hcode⟩
  have hheld : (stackHoldings stack).count x ≤ (s.heldBy c).count x := by
    by_cases hc : c = s.running
    · subst hc
      rw [stackOf_running, Option.some.injEq] at hstack
      rw [heldBy_running, hstack, List.count_append]
      exact Nat.le_add_right _ _
    · rw [stackOf_of_ne hc] at hstack
      exact Nat.le_of_eq (by rw [heldBy_parked hc hstack])
  have hframe : a.holdings.count x ≤ (stackHoldings stack).count x := by
    rcases hcode with hmem | ⟨call, hmem⟩
    · exact count_frame_le hmem x
    · refine Nat.le_trans ?_ (count_frame_le hmem x)
      simp only [Frame.holdings, List.count_append]
      exact Nat.le_add_left _ _
  have hshared := count_shared_add_heldBy s c x
  simp only [Scene.holdings, List.count_append]
  omega

/-- No two slots hold the same live handle. -/
theorem Sound.slots_apart (h : s.Sound lost) (hcode : s.HasCode a) (hne : other ≠ slot)
    (hslot : (Scene.mk s.world a).handleAt slot = .live c) :
    (Scene.mk s.world a).handleAt other ≠ .live c := by
  intro hother
  have hone := h.count_le_one .handle c
  have hall := hcode.count_le (.token .handle c)
  have hfirst := (Scene.mk s.world a).take_count (x := .token .handle c) slot
  have hsecond := ((Scene.mk s.world a).take slot).2.take_count (x := .token .handle c) other
  rw [Scene.fst_take, hslot] at hfirst
  rw [Scene.fst_take, Scene.handleAt_take, if_neg hne, hother] at hsecond
  simp only [Handle.holdings, List.count_cons_self, List.count_nil] at hfirst hsecond
  omega

/-- The context of a handle in a slot is parked. -/
theorem Sound.parked_of_handleAt (h : s.Sound lost) (hcode : s.HasCode a)
    (hslot : (Scene.mk s.world a).handleAt slot = .live c) :
    c ≠ s.running ∧ exists stack, s.parked? c = some stack := by
  have hall := hcode.count_le (.token .handle c)
  have hfirst := (Scene.mk s.world a).take_count (x := .token .handle c) slot
  rw [Scene.fst_take, hslot] at hfirst
  simp only [Handle.holdings, List.count_cons_self, List.count_nil] at hfirst
  have htoken : 0 < s.holdings.count (.token .handle c) := by omega
  rcases h.parked_of_token htoken with ⟨stack, hstack, hneed⟩
  exact ⟨h.ne_running hstack hneed, stack, hstack⟩

/-! ## Handles go back -/

/--
Handles go back into empty slots, one with each step.  Nothing is replaced, so nothing is dropped,
and all that changes are the slots.
-/
theorem after_store {reads : SlotName -> Handle} {note : Option Note} {below : List Frame}
    (hrun : t.control = .run)
    (hstack : t.stack =
      .calling (.store (slots.map fun slot => (slot, reads slot)) note) a :: below)
    (hblocks : a.blocks ≠ []) (hslots : slots.Nodup)
    (hreads : forall slot, (Scene.mk t.world a).handleAt slot =
      if slot ∈ slots then .empty else reads slot)
    {n : Nat} (hn : n ≤ slots.length) :
    exists globals b,
      Config.after n (.active t) = .active
        { t with
          world := { t.world with globals := globals }
          stack := .calling (.store ((slots.drop n).map fun slot => (slot, reads slot)) note) b ::
            below } ∧
      b.identity = a.identity ∧
      forall slot, (Scene.mk { t.world with globals := globals } b).handleAt slot =
        if slot ∈ slots.drop n then .empty else reads slot := by
  induction n generalizing t a slots with
  | zero =>
      refine ⟨t.world.globals, a, ?_, rfl, hreads⟩
      rw [List.drop_zero, <- hstack]
      rfl
  | succ n ih =>
      cases slots with
      | nil => cases hn
      | cons slot rest =>
          rcases List.nodup_cons.mp hslots with ⟨hfirst, hrest⟩
          have hempty : ((Scene.mk t.world a).put slot (reads slot)).1 = .empty := by
            rw [Scene.fst_put hblocks, hreads, if_pos List.mem_cons_self]
          have hworld := Scene.world_put (s := ⟨t.world, a⟩) slot (reads slot)
          have hothers := Scene.handleAt_put (s := ⟨t.world, a⟩) hblocks slot (reads slot)
          have hleft := Scene.blocks_put (s := ⟨t.world, a⟩) hblocks slot (reads slot)
          have hidentity := Scene.identity_put (s := ⟨t.world, a⟩) slot (reads slot)
          have hstep : t.step = .active
              { t with
                world := ((Scene.mk t.world a).put slot (reads slot)).2.world
                stack := .calling (.store (rest.map fun slot => (slot, reads slot)) note)
                  ((Scene.mk t.world a).put slot (reads slot)).2.code :: below } := by
            simp only [step, hrun, run, hstack, List.map_cons, runCall, hempty]
            rfl
          generalize (Scene.mk t.world a).put slot (reads slot) = placed at *
          rcases placed with ⟨old, w, b⟩
          rw [hworld] at hstep
          have hlater := ih
            (t := { t with
              world := { t.world with globals := w.globals }
              stack := .calling (.store (rest.map fun slot => (slot, reads slot)) note) b ::
                below })
            hrun rfl hleft hrest ?_ (Nat.le_of_succ_le_succ hn)
          · rcases hlater with ⟨globals, b', hafter, hsame, hfinal⟩
            exact ⟨globals, b', by rw [Config.after, hstep]; exact hafter, hsame.trans hidentity,
              hfinal⟩
          · intro other
            have hother := hothers other
            rw [hreads] at hother
            have hsame : (Scene.mk { t.world with globals := w.globals } b).handleAt other =
                (Scene.mk w b).handleAt other := Scene.handleAt_congr rfl
            refine (hsame.trans hother).trans ?_
            simp only [List.mem_cons]
            by_cases heq : other = slot
            · rw [if_pos heq, heq, if_neg hfirst]
            · rw [if_neg heq]
              simp only [heq, false_or]

/-- In two states with the same contexts every context has as many handles. -/
theorem Sound.handlesOf_congr {lost' : List ContextId} (h : s.Sound lost) (h' : t.Sound lost')
    (hcontexts : t.contexts = s.contexts) (c : ContextId) : t.handlesOf c = s.handlesOf c := by
  have hbefore := h.balance .handle c
  have hafter := h'.balance .handle c
  rw [count_lost_of_ne (by decide), Nat.add_zero] at hbefore hafter
  rw [handlesOf, handlesOf, hbefore, hafter, awaited, awaited, hcontexts]

/-- What becomes of a state in which sets are built of the handles in some slots. -/
structure Gathers (s : State) (a : Activation) (below : List Frame) (slots : List SlotName) :
    Prop where
  /-- While the handles are out of their slots, nothing is logged, and no handle is lost. -/
  quiet : forall n, n ≤ slots.length + 1 ->
    exists t, Config.after n (.active s) = .active t ∧ t.running = s.running ∧
      t.contexts = s.contexts ∧ t.world = { s.world with globals := t.world.globals } ∧
      forall c, t.handlesOf c = s.handlesOf c
  /-- In the end the sizes are noted, and every slot reads as before. -/
  restored : exists t b, Config.after (slots.length + 2) (.active s) = .active t ∧
    t.stack = .code b :: below ∧ b.identity = a.identity ∧ t.running = s.running ∧
    t.contexts = s.contexts ∧
    t.world =
      { s.world with
        globals := t.world.globals
        log := .noted a.label (.collected (slots.map (Scene.mk s.world a).handleAt)) ::
          s.world.log } ∧
    (forall slot, (Scene.mk t.world b).handleAt slot = (Scene.mk s.world a).handleAt slot) ∧
    forall c, t.handlesOf c = s.handlesOf c

/-- The handles are taken, and put back. -/
theorem after_collect {below : List Frame} (hstack : s.stack = .code a :: below)
    (hop : s.operation? = some (.collect slots)) (hslots : slots.Nodup) {n : Nat}
    (hn : n ≤ slots.length) :
    exists globals b,
      Config.after (n + 1) (.active s) = .active
        { s with
          world := { s.world with globals := globals }
          stack := .calling (.store ((slots.drop n).map fun slot =>
            (slot, (Scene.mk s.world a).handleAt slot))
              (some (.collected (slots.map (Scene.mk s.world a).handleAt)))) b :: below } ∧
      b.identity = a.identity ∧
      forall slot, (Scene.mk { s.world with globals := globals } b).handleAt slot =
        if slot ∈ slots.drop n then .empty else (Scene.mk s.world a).handleAt slot := by
  rcases operation?_eq_some hop with ⟨a', below', block, outer, rest, hrun, hstack', -, hblocks, -⟩
  cases hstack.symm.trans hstack'
  rcases Scene.takeAll_of_nodup (s := ⟨s.world, a.advance⟩) hslots with ⟨htaken, hreads⟩
  have hworld := Scene.world_takeAll ⟨s.world, a.advance⟩ slots
  have hidentity := Scene.identity_takeAll (s := ⟨s.world, a.advance⟩) slots
  have houtline := Scene.outline_takeAll (s := ⟨s.world, a.advance⟩) slots
  simp only [Scene.handleAt_advance] at htaken hreads
  have hstep := step_of_operation hstack hop
  simp only [execute, htaken, List.map_map] at hstep
  generalize (Scene.mk s.world a.advance).takeAll slots = taken at *
  rcases taken with ⟨pending, w, b⟩
  have hleft : b.blocks ≠ [] := by
    intro hnil
    have hkinds := congrArg Prod.snd houtline
    simp [Activation.outline, hnil, Activation.advance, hblocks] at hkinds
  have hsame : b.identity = a.identity := by
    refine Eq.trans hidentity ?_
    unfold Activation.advance
    split <;> rfl
  have hworld : w = { s.world with globals := w.globals } := hworld
  have htaking : s.step = .active
      { s with
        world := { s.world with globals := w.globals }
        stack := .calling (.store (slots.map fun slot =>
          (slot, (Scene.mk s.world a).handleAt slot))
            (some (.collected (slots.map (Scene.mk s.world a).handleAt)))) b :: below } := by
    rw [hstep, State.store, go, <- hworld, <- hrun]
    rfl
  have hputting := after_store
    (t := { s with
      world := { s.world with globals := w.globals }
      stack := .calling (.store (slots.map fun slot =>
        (slot, (Scene.mk s.world a).handleAt slot))
          (some (.collected (slots.map (Scene.mk s.world a).handleAt)))) b :: below })
    hrun rfl hleft hslots
    (fun slot => (Scene.handleAt_congr rfl).trans (hreads slot)) hn
  rcases hputting with ⟨globals, b', hafter, hidentity', hfinal⟩
  exact ⟨globals, b', by rw [Config.after, htaking]; exact hafter, hidentity'.trans hsame, hfinal⟩

end State

/-! ## Runs -/

section Runs

variable {p : Program} {past : List State} {s : State} {a : Activation} {slots : List SlotName}

/-- Building sets of handles drops nothing, and leaves every slot as it was. -/
theorem Program.Reaches.gathers (h : p.Reaches past s) {below : List Frame}
    (hstack : s.stack = .code a :: below) (hop : s.operation? = some (.collect slots))
    (hslots : slots.Nodup) : s.Gathers a below slots := by
  have hhandles : forall n t, Config.after n (.active s) = .active t ->
      t.contexts = s.contexts -> forall c, t.handlesOf c = s.handlesOf c := by
    intro n t ht hcontexts
    rcases h.comesTo ⟨n, ht⟩ with ⟨past', hreach⟩
    exact h.sound.handlesOf_congr hreach.sound hcontexts
  constructor
  · intro n hn
    cases n with
    | zero => exact ⟨s, rfl, rfl, rfl, rfl, fun _ => rfl⟩
    | succ n =>
        rcases State.after_collect hstack hop hslots (Nat.le_of_succ_le_succ hn) with
          ⟨globals, b, hafter, -, -⟩
        exact ⟨_, hafter, rfl, rfl, rfl, hhandles _ _ hafter rfl⟩
  · rcases State.after_collect hstack hop hslots (Nat.le_refl _) with
      ⟨globals, b, hafter, hidentity, hreads⟩
    rw [List.drop_length, List.map_nil] at hafter
    have hrun : s.control = .run := by
      rcases State.operation?_eq_some hop with ⟨_, _, _, _, _, hrun, -⟩
      exact hrun
    have hlabel : b.label = a.label := congrArg Prod.fst hidentity
    have hlast : Config.after (slots.length + 2) (.active s) = .active
        { s with
          world :=
            { s.world with
              globals := globals
              log := .noted a.label (.collected (slots.map (Scene.mk s.world a).handleAt)) ::
                s.world.log }
          stack := .code b :: below } := by
      rw [Config.after_succ, hafter, Config.next]
      simp only [State.step, State.run, hrun, State.runCall, Option.elim_some, World.note,
        World.report, State.go, hlabel]
    refine ⟨_, b, hlast, rfl, hidentity, rfl, rfl, rfl, ?_, hhandles _ _ hlast rfl⟩
    intro slot
    refine (Scene.handleAt_congr rfl).trans ((hreads slot).trans ?_)
    rw [List.drop_length, if_neg List.not_mem_nil]

/-- A context that does not run is suspended. -/
def State.Suspended (s : State) (c : ContextId) : Prop :=
  c ≠ s.running ∧ exists stack, s.parked? c = some stack

/-- The handles in some slots, as they are compared. -/
def Scene.keys (s : Scene) (address : ContextId -> Nat) (slots : List SlotName) : List Handle :=
  slots.map fun slot => (s.handleAt slot).savedAt address

/-- The live handles in some slots, and one for the empty ones if there are any. -/
def Scene.setSize (s : Scene) (slots : List SlotName) : Nat :=
  slots.countP (fun slot => !(s.handleAt slot).isEmpty) +
    if slots.any fun slot => (s.handleAt slot).isEmpty then 1 else 0

/--
What makes handles sound keys, for the code that has them and wherever the suspended contexts were
saved.
-/
structure State.KeysSound (s : State) (a : Activation) (address : ContextId -> Nat)
    (slots : List SlotName) : Prop where
  /-- Equality, order and hash tell the same handles apart. -/
  consistent : forall x y : Handle,
    x.isConsistent y = true ∧ (x.order y = .eq ↔ x = y) ∧ (x.hashed = y.hashed ↔ x = y)
  /-- The order is total. -/
  swap : forall x y : Handle, y.order x = (x.order y).swap
  trans : forall x y z : Handle, (x.order y).isLE -> (y.order z).isLE -> (x.order z).isLE
  /-- All empty handles are equal, and below every live one. -/
  empty : forall x y : Handle, x.isEmpty = true -> x.order y = if y.isEmpty then .eq else .lt
  /-- No context has two handles, wherever they are. -/
  one : forall c, s.handlesOf c ≤ 1
  /-- Different slots have equal handles just if both are empty. -/
  distinct : forall x y, x ≠ y ->
    (((Scene.mk s.world a).handleAt x).savedAt address =
        ((Scene.mk s.world a).handleAt y).savedAt address ↔
      (Scene.mk s.world a).handleAt x = .empty ∧ (Scene.mk s.world a).handleAt y = .empty)
  sorted : (Handle.orderedSet ((Scene.mk s.world a).keys address slots)).length =
    (Scene.mk s.world a).setSize slots
  hashed : forall hasher,
    (Handle.hashedSet hasher ((Scene.mk s.world a).keys address slots)).length =
      (Scene.mk s.world a).setSize slots
  first : (Handle.orderedSet ((Scene.mk s.world a).keys address slots)).head? = some .empty ↔
    exists slot, slot ∈ slots ∧ (Scene.mk s.world a).handleAt slot = .empty
  /-- The sets take in each live handle, and so drop none. -/
  kept : forall c,
    (Handle.orderedSet ((Scene.mk s.world a).keys address slots)).count (.live c) =
        ((Scene.mk s.world a).keys address slots).count (.live c) ∧
      forall hasher,
        (Handle.hashedSet hasher ((Scene.mk s.world a).keys address slots)).count (.live c) =
          ((Scene.mk s.world a).keys address slots).count (.live c)
  /-- What is noted of the sets are these sizes, and whether a handle is empty. -/
  written : forall hosts,
    (Note.collected (slots.map (Scene.mk s.world a).handleAt)).fields hosts =
      [.text "set", .number ((Scene.mk s.world a).setSize slots),
        .number ((Scene.mk s.world a).setSize slots),
        if slots = [] then .absent
        else .truth (slots.any fun slot => ((Scene.mk s.world a).handleAt slot).isEmpty)]
  gathers : forall below, s.stack = .code a :: below -> s.operation? = some (.collect slots) ->
    s.Gathers a below slots

/-- Slots with equal live handles are one slot. -/
theorem State.Sound.slot_unique {lost : List ContextId} {address : ContextId -> Nat}
    (h : s.Sound lost) (hcode : s.HasCode a)
    (haddress : forall c d, s.Suspended c -> s.Suspended d -> address c = address d -> c = d)
    {x y : SlotName} {k : ContextId}
    (hx : ((Scene.mk s.world a).handleAt x).savedAt address = .live k)
    (hy : ((Scene.mk s.world a).handleAt y).savedAt address = .live k) : x = y := by
  cases hhx : (Scene.mk s.world a).handleAt x with
  | empty => rw [hhx] at hx; cases hx
  | live c =>
      cases hhy : (Scene.mk s.world a).handleAt y with
      | empty => rw [hhy] at hy; cases hy
      | live d =>
          rw [hhx, Handle.savedAt, Handle.live.injEq] at hx
          rw [hhy, Handle.savedAt, Handle.live.injEq] at hy
          have hcd := haddress c d (h.parked_of_handleAt hcode hhx) (h.parked_of_handleAt hcode hhy)
            (hx.trans hy.symm)
          by_cases hxy : x = y
          · exact hxy
          · exact absurd (hcd ▸ hhx) (h.slots_apart hcode hxy hhy)

theorem mem_empty_keys (s : Scene) (address : ContextId -> Nat) (slots : List SlotName) :
    .empty ∈ s.keys address slots ↔ slots.any (fun slot => (s.handleAt slot).isEmpty) = true := by
  simp only [Scene.keys, List.mem_map, Handle.savedAt_eq_empty, List.any_eq_true]
  constructor
  · rintro ⟨slot, hslot, hh⟩
    exact ⟨slot, hslot, by rw [hh]; rfl⟩
  · rintro ⟨slot, hslot, hh⟩
    refine ⟨slot, hslot, ?_⟩
    cases hread : s.handleAt slot with
    | empty => rfl
    | live c => rw [hread] at hh; cases hh

theorem setSize_eq (s : Scene) (address : ContextId -> Nat) (slots : List SlotName) :
    Handle.sizeAmong (s.keys address slots) = s.setSize slots := by
  have hlive : Handle.liveAmong (s.keys address slots) =
      slots.countP fun slot => !(s.handleAt slot).isEmpty := by
    simp only [Handle.liveAmong, Scene.keys, List.countP_map, Function.comp_def,
      Handle.isEmpty_savedAt]
  simp only [Handle.sizeAmong, Scene.setSize, hlive, mem_empty_keys]

/-- The row that is written of a collection, by the contexts' own names. -/
theorem State.Sound.fields_collected {lost : List ContextId} (h : s.Sound lost)
    (hcode : s.HasCode a) (hslots : slots.Nodup) (hosts : HostTable) :
    (Note.collected (slots.map (Scene.mk s.world a).handleAt)).fields hosts =
      [.text "set", .number ((Scene.mk s.world a).setSize slots),
        .number ((Scene.mk s.world a).setSize slots),
        if slots = [] then .absent
        else .truth (slots.any fun slot => ((Scene.mk s.world a).handleAt slot).isEmpty)] := by
  have hkeys : slots.map (Scene.mk s.world a).handleAt = (Scene.mk s.world a).keys id slots := by
    apply List.map_congr_left
    intro slot _
    cases (Scene.mk s.world a).handleAt slot <;> rfl
  have honce : forall k, ((Scene.mk s.world a).keys id slots).count (.live k) ≤ 1 := fun k =>
    Handle.count_map_le_one hslots fun x y hx hy =>
      h.slot_unique hcode (fun _ _ _ _ heq => heq) hx hy
  have hordered := Handle.length_of_set honce
    (Handle.rising_orderedSet ((Scene.mk s.world a).keys id slots)).nodup
    fun _ => Handle.mem_orderedSet
  have hdistinct := Handle.length_of_set honce (Handle.nodup_distinctSet _)
    fun _ => Handle.mem_distinctSet
  simp only [Note.fields, hkeys, hordered, hdistinct, setSize_eq]
  cases hhead : (Handle.orderedSet ((Scene.mk s.world a).keys id slots)).head? with
  | none =>
      have hnil : (Scene.mk s.world a).keys id slots = [] := by
        rw [List.head?_eq_none_iff] at hhead
        apply List.eq_nil_iff_forall_not_mem.mpr
        intro k hk
        have hmem := Handle.mem_orderedSet.mpr hk
        rw [hhead] at hmem
        cases hmem
      rw [if_pos (List.map_eq_nil_iff.mp hnil)]
  | some first =>
      have hne : slots ≠ [] := by
        rintro rfl
        cases hhead
      rw [if_neg hne]
      simp only [Handle.isEmpty_of_head hhead, mem_empty_keys, Bool.decide_eq_true]

/--
In every state of a run handles are sound keys of sets, as long as suspended contexts are saved at
different addresses.
-/
theorem handles_are_sound_keys {address : ContextId -> Nat} (h : p.Reaches past s)
    (hcode : s.HasCode a) (hslots : slots.Nodup)
    (haddress : forall c d, s.Suspended c -> s.Suspended d -> address c = address d -> c = d) :
    s.KeysSound a address slots := by
  have hsound := h.sound
  have honce : forall k, ((Scene.mk s.world a).keys address slots).count (.live k) ≤ 1 := fun k =>
    Handle.count_map_le_one hslots fun x y hx hy => hsound.slot_unique hcode haddress hx hy
  have hrising := (Handle.rising_orderedSet ((Scene.mk s.world a).keys address slots)).nodup
  have hdistinct := Handle.nodup_distinctSet ((Scene.mk s.world a).keys address slots)
  constructor
  · exact fun x y => ⟨x.isConsistent_eq_true y, Handle.order_eq_eq, Handle.hashed_inj⟩
  · exact Handle.order_swap
  · exact fun _ _ _ => Handle.order_le_trans
  · intro x y hx
    cases x with
    | empty => cases y <;> rfl
    | live c => cases hx
  · exact hsound.count_le_one .handle
  · intro x y hxy
    constructor
    · intro heq
      cases hread : (Scene.mk s.world a).handleAt x with
      | empty =>
          rw [hread] at heq
          exact ⟨rfl, Handle.savedAt_eq_empty.mp heq.symm⟩
      | live c =>
          rw [hread] at heq
          exact absurd (hsound.slot_unique hcode haddress (by rw [hread]; rfl) heq.symm) hxy
    · rintro ⟨hx, hy⟩
      rw [hx, hy]
  · rw [Handle.length_of_set honce hrising fun _ => Handle.mem_orderedSet, setSize_eq]
  · intro hasher
    rw [Handle.hashedSet_eq, Handle.length_of_set honce hdistinct fun _ => Handle.mem_distinctSet,
      setSize_eq]
  · rw [Handle.head_orderedSet, Scene.keys, List.mem_map]
    simp only [Handle.savedAt_eq_empty]
  · intro c
    constructor
    · exact Handle.count_live_of_set honce hrising (fun _ => Handle.mem_orderedSet) c
    · intro hasher
      rw [Handle.hashedSet_eq]
      exact Handle.count_live_of_set honce hdistinct (fun _ => Handle.mem_distinctSet) c
  · exact hsound.fields_collected hcode hslots
  · exact fun below hstack hop => h.gathers hstack hop hslots

/-- One live handle and two empty ones, of which sets are built. -/
def Program.threeSlots : Program where
  hosts := []
  main :=
    [.create ⟨.own "f", "F", none, .heap "A" 4096⟩ [] [] [],
      .collect [.own "f", .shared "g", .own "h"]]

/-- The two empty handles are equal, the live one is not, and it is still there afterwards. -/
theorem handles_are_sound_keys_of_threeSlots :
    exists past s a, Program.threeSlots.Reaches past s ∧
      s.operation? = some (.collect [.own "f", .shared "g", .own "h"]) ∧
      (Scene.mk s.world a).handleAt (.own "f") = .live 1 ∧
      (Scene.mk s.world a).setSize [.own "f", .shared "g", .own "h"] = 2 ∧
      s.KeysSound a (fun c => 16 * c + 8) [.own "f", .shared "g", .own "h"] := by
  have hafter : exists s a, Config.after 5 (.active Program.threeSlots.start) = .active s ∧
      s.stack = [.code a, .root .program] ∧
      s.operation? = some (.collect [.own "f", .shared "g", .own "h"]) ∧
      (Scene.mk s.world a).handleAt (.own "f") = .live 1 ∧
      (Scene.mk s.world a).setSize [.own "f", .shared "g", .own "h"] = 2 :=
    ⟨_, _, rfl, rfl, rfl, rfl, rfl⟩
  rcases hafter with ⟨s, a, hs, hstack, hop, hlive, hsize⟩
  rcases Program.after_eq_active.mp hs with ⟨past, -, hreach⟩
  refine ⟨past, s, a, hreach, hop, hlive, hsize,
    handles_are_sound_keys hreach (.running hstack) (by decide) fun c d _ _ heq => ?_⟩
  have hsame : 16 * c + 8 = 16 * d + 8 := heq
  exact Nat.eq_of_mul_eq_mul_left (by decide) (Nat.add_right_cancel hsame)

end Runs

end Fibers
