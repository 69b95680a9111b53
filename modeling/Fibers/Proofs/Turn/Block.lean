import Fibers.Proofs.Turn.Code

/-!
# Steps between operations

Running code that does no operation closes a block, begins another round of it, or comes to its end
and hands its result to the frame below.
-/

namespace Fibers

/-- Only a result can be unwanted. -/
theorem Activation.entries_unwanted {a : Activation} {outer : List Block} {e : Entry}
    {es : List Entry} (h : a.unwanted outer = e :: es) : a.flow.result.entries = e :: es := by
  unfold unwanted at h
  split at h
  · exact h
  · cases h

namespace State

variable {s : State}

/-! ## Steps on one stack -/

/-- A step that makes no guards and keeps the running context on its way. -/
theorem stayOn {w : World} {stack : List Frame} (hrun : s.control = .run)
    (hmade : s.guardsMade = []) (hmemory : w.memory = s.world.memory)
    (hbooks : w.books = Books.adjust s.world.books [] s.guardsDropped)
    (hbalance : forall x,
      w.holdings.count x + (stackHoldings stack).count x + s.gone.count x =
        s.world.holdings.count x + (stackHoldings s.stack).count x)
    (hstacked : Stacked (homeOf s.running) stack) (hactive : Active stack)
    (htidy : Tidy s.world s.stack -> Tidy w stack)
    (hlease : leaseOf stack = leaseOf s.stack) (hcalls : openCalls stack = openCalls s.stack)
    (hobeys : forall d : Discipline,
      d.allowsStack s.stack = true -> d.allowsStack stack = true) :
    s.Turn (s.go w stack) := by
  have hended : s.callsEnded = [] := by simp [callsEnded, hrun]
  apply Turn.stay
  exact
    { running := rfl
      contexts := rfl
      memory := Nat.le_of_eq (congrArg Memory.next hmemory.symm)
      books := by rw [booksAfter, hmade]; exact hbooks
      balance := by
        intro x
        have hall := hbalance x
        simp only [pool, made, hmade, hrun, Control.holdings, List.count_append, List.count_nil,
          List.map_nil, Nat.add_zero] at hall ⊢
        exact hall
      stands := ⟨hstacked, hactive⟩
      tidy := htidy
      lease := by simp only [lease?, hrun, hlease]
      calls := by rw [hended, hcalls]; rfl
      obeys := fun d hd => ⟨hobeys d hd.1, rfl⟩ }

/-- What a step is about that neither does an operation nor drops an entry. -/
structure Quiet (s : State) : Prop where
  run : s.control = .run
  made : s.guardsMade = []
  dropped : s.guardsDropped = []
  swallows : s.swallows = []

theorem Quiet.ofCode {a : Activation} {below : List Frame} (hrun : s.control = .run)
    (hstack : s.stack = .code a :: below) (hop : s.operation? = none) : s.Quiet where
  run := hrun
  made := by simp [guardsMade, hop]
  dropped := by simp [guardsDropped, hrun, hstack]
  swallows := by simp [State.swallows, hrun, hstack]

namespace Quiet

theorem gone (h : s.Quiet) : s.gone = [] := by
  rw [State.gone, h.dropped, h.swallows]
  rfl

theorem callsEnded (h : s.Quiet) : s.callsEnded = [] := by simp only [State.callsEnded, h.run]

theorem booksAfter (h : s.Quiet) : s.booksAfter = s.world.books := by
  rw [State.booksAfter, h.made, h.dropped]
  simp [Books.adjust]

end Quiet

/-- A quiet step only moves what the running context holds. -/
theorem Quiet.stay {w : World} {stack : List Frame} (h : s.Quiet)
    (hmemory : w.memory = s.world.memory) (hbooks : w.books = s.world.books)
    (hbalance : forall x, w.holdings.count x + (stackHoldings stack).count x =
      s.world.holdings.count x + (stackHoldings s.stack).count x)
    (hstacked : Stacked (homeOf s.running) stack) (hactive : Active stack)
    (htidy : Tidy s.world s.stack -> Tidy w stack)
    (hlease : leaseOf stack = leaseOf s.stack) (hcalls : openCalls stack = openCalls s.stack)
    (hobeys : forall d : Discipline,
      d.allowsStack s.stack = true -> d.allowsStack stack = true) :
    s.Turn (s.go w stack) := by
  apply stayOn h.run h.made hmemory _ _ hstacked hactive htidy hlease hcalls hobeys
  · rw [hbooks, h.dropped]
    simp [Books.adjust]
  · intro x
    have hall := hbalance x
    simpa [h.gone] using hall

/-- What was on top of a parked context is over, and what lies below goes on with its signal. -/
theorem Quiet.uncover {f : Frame} {source next : ContextId} {below : List Frame} {m : Message}
    (h : s.Quiet) (hstack : s.stack = f :: .onTop source :: below)
    (hholdings : f.holdings = (Signal.message m).holdings next)
    (hlease : leaseOf s.stack = leaseOf below) (hresume : f.isResume = false)
    (hneed : needOf below = some .handle) (hlands : Lands (homeOf s.running) (.message m) below) :
    s.Turn (.active { s with stack := below, control := .landed next (.message m) }) := by
  apply Turn.stay
  exact
    { running := rfl
      contexts := rfl
      memory := Nat.le_refl _
      books := h.booksAfter.symm
      balance := by
        intro x
        have hsource : (Frame.onTop source).holdings = [] := rfl
        simp only [pool, h.gone, State.made, h.made, hstack, h.run, stackHoldings_cons, hsource,
          hholdings, Control.holdings, List.count_append, List.map_nil, List.count_nil]
        omega
      stands := hlands
      tidy := fun htidy => .of_needOf htidy.1 hneed
      lease := by simp only [lease?, h.run, hlease]
      calls := by
        cases f <;> simp_all [h.callsEnded, openCalls, Frame.isResume]
      obeys := by
        intro d hd
        have hall := hd.1
        simp only [hstack, Discipline.allowsStack, List.all_cons, Discipline.allowsFrame,
          Bool.true_and, Bool.and_eq_true] at hall
        exact ⟨hall.2, rfl⟩ }

/-! ## Code -/

theorem turn_give {a : Activation} {below : List Frame} (h : s.Quiet)
    (hstack : s.stack = .code a :: below) (hblocks : a.blocks = [])
    (hstacked : Stacked (homeOf s.running) s.stack) : s.Turn (s.give a.flow.result below) := by
  have hholdings : a.holdings = a.flow.result.holdings := by
    simp [Activation.holdings, hblocks]
  have hlease : leaseOf s.stack = leaseOf below := by
    rw [hstack]
    rfl
  have hall := hstacked
  rw [hstack] at hall
  rcases hall with ⟨hcarries, hbelow⟩
  unfold give
  split
  · rename_i source rest
    rcases hbelow with ⟨hneed, hrest⟩
    cases hresult : a.flow.result with
    | live next =>
        rw [hresult] at hholdings
        exact h.uncover hstack hholdings hlease rfl hneed (Lands.handover hrest (Or.inl hneed))
    | empty =>
        rw [hresult] at hholdings
        exact h.uncover hstack hholdings hlease rfl hneed ⟨hrest, Or.inl hneed⟩
  · rename_i lease rest
    cases hresult : a.flow.result with
    | live next =>
        rw [hresult] at hholdings
        apply h.stay rfl rfl
        · intro x
          simp [hstack, Frame.holdings, FiberStage.holdings, Ending.holdings, hholdings,
            Handle.holdings]
        · exact ⟨hbelow.1, trivial, hbelow.2.2⟩
        · trivial
        · exact fun htidy => ⟨htidy.1, trivial⟩
        · rw [hstack]
          rfl
        · rw [hstack]
          rfl
        · intro d hd
          simp_all [Discipline.allowsStack, Discipline.allowsFrame]
    | empty => exact Turn.halt (.emptyResult h.run hstack)
  · rename_i entries cause rest
    apply h.stay rfl rfl
    · intro x
      simp only [hstack, stackHoldings_cons, Frame.holdings, hholdings, entryHoldings_append,
        entryHoldings_handle, List.count_append]
      omega
    · cases cause with
      | none => exact ⟨InCode.carriesDrop hcarries, hbelow.2⟩
      | some cause => exact hbelow
    · trivial
    · exact fun htidy => ⟨htidy.1, trivial⟩
    · rw [hstack]
      rfl
    · rw [hstack]
      rfl
    · intro d hd
      simp_all [Discipline.allowsStack, Discipline.allowsFrame]
  · rename_i rest
    apply h.stay rfl rfl
    · intro x
      simp only [hstack, stackHoldings_dropFirst, stackHoldings_cons, Frame.holdings, hholdings,
        entryHoldings_handle, List.count_append, List.count_nil]
    · have hending : Stacked (homeOf s.running) (.root .ending :: rest) := hbelow
      apply hending.dropFirst
      cases a.flow.result <;> rfl
    · exact Active.dropFirst trivial
    · exact fun htidy => Tidy.dropFirst ⟨htidy.1, trivial⟩
    · simp [hstack, leaseOf]
    · simp [hstack, openCalls, Frame.isResume]
    · intro d hd
      cases hresult : a.flow.result <;>
        simp_all [dropFirst, Handle.entries, Entry.unnamed, Discipline.allowsStack,
          Discipline.allowsFrame, Discipline.allowsEntry]
  · rename_i hother
    exfalso
    unfold CarriesCode at hcarries
    split at hcarries <;> simp_all

/-- Code that holds what the running code does can be staged in its place. -/
theorem Staged.ofCode (a' : Activation) {a : Activation} {below : List Frame} (hrun : s.control = .run)
    (hstack : s.stack = .code a :: below) (hstacked : Stacked (homeOf s.running) s.stack)
    (honward : a'.flow = .onward) (hholdings : a'.holdings = a.holdings)
    (hobeys : forall d : Discipline, d.allowsCode a = true -> d.allowsCode a' = true) :
    s.Staged ⟨s.world, a'⟩ below [] [] := by
  rw [hstack] at hstacked
  apply Staged.ofTop hstack hstacked.1 hstacked.2 honward
  · intro x
    simp [Frame.holdings, hholdings, hrun, Control.holdings]
  · simp [lease?, hrun, hstack, leaseOf]
  · simp [callsEnded, hrun, hstack, openCalls, Frame.isResume]
  · simp [guardsDropped, hrun, hstack]
  · simp [State.swallows, hrun, hstack]
  · exact hobeys

theorem turn_endBlock {a : Activation} {b : Block} {outer : List Block} {below : List Frame}
    (h : s.Quiet) (hstack : s.stack = .code a :: below) (hblocks : a.blocks = b :: outer)
    (hentries : b.entries = []) (hstacked : Stacked (homeOf s.running) s.stack) :
    s.Turn (s.endBlock a b outer below) := by
  have hall := hstacked
  rw [hstack] at hall
  have hgo : forall a' : Activation, a'.holdings = a.holdings ->
      (forall d : Discipline, d.allowsCode a = true -> d.allowsCode a' = true) ->
      s.Turn (s.go s.world (.code a' :: below)) := by
    intro a' hholdings hobeys
    apply h.stay rfl rfl
    · intro x
      simp [hstack, Frame.holdings, hholdings]
    · exact hall
    · trivial
    · exact fun htidy => ⟨htidy.1, trivial⟩
    · rw [hstack]
      rfl
    · rw [hstack]
      rfl
    · intro d hd
      simp only [hstack, Discipline.allowsStack, List.all_cons, Discipline.allowsFrame,
        Bool.and_eq_true] at hd ⊢
      exact ⟨hobeys d hd.1, hd.2⟩
  have hleave : forall f : Flow, f.result = a.flow.result ->
      (Activation.mk a.label a.role outer f).holdings = a.holdings := by
    intro f hf
    simp [Activation.holdings, hblocks, Block.holdings, hentries, hf]
  have hkeeps : forall d : Discipline, d.allowsCode a = true ->
      d.allowsKind b.kind = true ∧ outer.all d.allowsBlock = true := by
    intro d hd
    simp only [Discipline.allowsCode, hblocks, List.all_cons, Discipline.allowsBlock,
      Bool.and_eq_true] at hd
    exact ⟨hd.1.1.1, hd.2⟩
  unfold endBlock
  cases hflow : a.flow with
  | onward =>
      rw [hflow] at hleave
      cases hkind : b.kind with
      | rounds left code =>
          cases left with
          | zero => exact hgo _ (hleave _ rfl) fun d hd => (hkeeps d hd).2
          | succ left =>
              apply hgo
              · simp [Activation.holdings, hblocks, Block.holdings, hentries, hflow]
              · intro d hd
                have hcode := hkeeps d hd
                rw [hkind] at hcode
                simp only [Discipline.allowsCode, List.all_cons, Discipline.allowsBlock,
                  Discipline.allowsKind, List.all_nil, Bool.and_true, Bool.and_eq_true] at hcode ⊢
                exact ⟨⟨hcode.1, hcode.1⟩, hcode.2⟩
      | whileLive slot left code =>
          cases left with
          | zero => exact hgo _ (hleave _ rfl) fun d hd => (hkeeps d hd).2
          | succ left =>
              have hstaged := (Staged.ofCode ⟨a.label, a.role, outer, .onward⟩ h.run hstack
                hstacked rfl (hleave .onward rfl) fun d hd => (hkeeps d hd).2).look slot
              have hnone := hstaged.makesNone h.made
              by_cases hempty :
                  ((Scene.mk s.world ⟨a.label, a.role, outer, .onward⟩).look slot).1.isEmpty
              · simp only [hempty, if_true]
                exact hnone.proceed
              · simp only [hempty]
                apply Staged.proceed
                apply hnone.enter
                intro d hd
                have hcode := hd.1
                simp only [hstack, Discipline.allowsStack, List.all_cons, Discipline.allowsFrame,
                  Bool.and_eq_true] at hcode
                have hkinds := (hkeeps d hcode.1).1
                rw [hkind] at hkinds
                exact ⟨hkinds, hkinds⟩
      | body | scope | attempt swallow =>
          exact hgo _ (hleave _ rfl) fun d hd => (hkeeps d hd).2
  | leavingLoop =>
      rw [hflow] at hleave
      by_cases hloop : b.kind.isLoop
      · simp only [hloop, if_true]
        exact hgo _ (hleave _ rfl) fun d hd => (hkeeps d hd).2
      · simp only [hloop]
        exact hgo _ (hleave _ rfl) fun d hd => (hkeeps d hd).2
  | returning result =>
      rw [hflow] at hleave
      exact hgo _ (hleave _ rfl) fun d hd => (hkeeps d hd).2

theorem turn_defaultResult {a : Activation} {below : List Frame} (h : s.Quiet)
    (hstack : s.stack = .code a :: below) (hresult : a.flow.result = .empty)
    (hstacked : Stacked (homeOf s.running) s.stack) :
    s.Turn (s.proceed ((Scene.mk s.world a).defaultResult.2.flow
      (.returning (Scene.mk s.world a).defaultResult.1)) below) := by
  have hall := hstacked
  rw [hstack] at hall
  cases hrole : a.role with
  | called argument =>
      have hdefault : (Scene.mk s.world a).defaultResult = (Scene.mk s.world a).take argument := by
        simp [Scene.defaultResult, hrole]
      rw [hdefault]
      apply h.stay
      · simp [Scene.flow]
      · simp [Scene.flow]
      · intro x
        have htake := (Scene.mk s.world a).take_count (x := x) argument
        simp only [Scene.holdings, Activation.holdings, Scene.flow_take, hresult, holdings_empty,
          List.count_append, List.count_nil] at htake
        simp only [Scene.flow, result_returning, hstack, stackHoldings_cons, Frame.holdings,
          Activation.holdings, hresult, holdings_empty, List.count_append, List.count_nil]
        omega
      · exact hall
      · trivial
      · exact fun htidy => ⟨World.NamesOnce.takeSlot (s := ⟨s.world, a⟩) htidy.1 argument, trivial⟩
      · rw [hstack]
        rfl
      · rw [hstack]
        rfl
      · intro d hd
        have hcode : d.allowsCode
            (((Scene.mk s.world a).take argument).2.flow
              (.returning ((Scene.mk s.world a).take argument).1)).code = d.allowsCode a :=
          Scene.allowsCode_take (s := Scene.mk s.world a) argument
        simp only [hstack, Discipline.allowsStack, List.all_cons, Discipline.allowsFrame,
          Bool.and_eq_true, hcode] at hd ⊢
        exact hd
  | program | cleanup =>
      have hdefault : (Scene.mk s.world a).defaultResult = (.empty, Scene.mk s.world a) := by
        simp [Scene.defaultResult, hrole]
      rw [hdefault]
      apply h.stay rfl rfl
      · intro x
        simp [Scene.flow, hstack, Frame.holdings, Activation.holdings, hresult]
      · exact hall
      · trivial
      · exact fun htidy => ⟨htidy.1, trivial⟩
      · rw [hstack]
        rfl
      · rw [hstack]
        rfl
      · intro d hd
        rw [hstack] at hd
        exact hd

/-- The entries of running code are dropped above what is left of it. -/
theorem turn_discard {a a' : Activation} {entries : List Entry} {below : List Frame} (h : s.Quiet)
    (hstack : s.stack = .code a :: below) (hstacked : Stacked (homeOf s.running) s.stack)
    (hholdings : forall x,
      (entryHoldings entries).count x + a'.holdings.count x = a.holdings.count x)
    (hobeys : forall d : Discipline, d.allowsCode a = true ->
      entries.all d.allowsEntry = true ∧ d.allowsCode a' = true) :
    s.Turn (s.go s.world (.discarding entries none :: .code a' :: below)) := by
  have hall := hstacked
  rw [hstack] at hall
  apply h.stay rfl rfl
  · intro x
    have hsplit := hholdings x
    simp only [hstack, stackHoldings_cons, Frame.holdings, Option.toList_none, List.flatMap_nil,
      List.append_nil, List.count_append]
    omega
  · exact ⟨trivial, hall⟩
  · trivial
  · exact fun htidy => ⟨htidy.1, trivial⟩
  · rw [hstack]
    rfl
  · rw [hstack]
    rfl
  · intro d hd
    simp only [hstack, Discipline.allowsStack, List.all_cons, Discipline.allowsFrame,
      Bool.and_eq_true] at hd ⊢
    have hsplit := hobeys d hd.1
    exact ⟨hsplit.1, hsplit.2, hd.2⟩

theorem turn_runCode {a : Activation} {below : List Frame} (hrun : s.control = .run)
    (hstack : s.stack = .code a :: below) (hstacked : Stacked (homeOf s.running) s.stack) :
    s.Turn (s.runCode a below) := by
  unfold runCode
  cases hblocks : a.blocks with
  | nil =>
      have hquiet : s.Quiet := .ofCode hrun hstack (by simp [operation?, hrun, hstack, hblocks])
      exact turn_give hquiet hstack hblocks hstacked
  | cons b outer =>
      dsimp only
      split
      · rename_i outer _ _ _ op rest hflow hcode
        have hop : s.operation? = some op := by
          simp [operation?, hrun, hstack, hblocks, hflow, hcode]
        have hallows : forall d : Discipline, d.allowsCode a = true ->
            d.allows op = true ∧
              d.allowsCode { a with blocks := { b with code := rest } :: outer } = true := by
          intro d hd
          simp only [Discipline.allowsCode, hblocks, List.all_cons, Discipline.allowsBlock, hcode,
            Discipline.allowsAll, Bool.and_eq_true] at hd ⊢
          simp_all
        have hholdings : { a with blocks := { b with code := rest } :: outer }.holdings =
            a.holdings := by
          simp [Activation.holdings, hblocks, Block.holdings]
        have hstaged := Staged.ofCode { a with blocks := { b with code := rest } :: outer } hrun
          hstack hstacked hflow hholdings fun d hd => (hallows d hd).2
        apply hstaged.execute hop (List.cons_ne_nil _ _)
        · simp [callsEnded, hrun]
        · intro d hd
          have hall := hd.1
          simp only [hstack, Discipline.allowsStack, List.all_cons, Discipline.allowsFrame,
            Bool.and_eq_true] at hall
          exact (hallows d hall.1).1
      · rename_i hflow hcode
        have hquiet : s.Quiet :=
          .ofCode hrun hstack (by simp [operation?, hrun, hstack, hblocks, hflow, hcode])
        exact turn_defaultResult hquiet hstack (by rw [hflow]; rfl) hstacked
      · rename_i hflow
        have hquiet : s.Quiet :=
          .ofCode hrun hstack (by simp [operation?, hrun, hstack, hblocks, hflow])
        exact turn_defaultResult hquiet hstack (by rw [hflow]; rfl) hstacked
      · rename_i outer _ _ _ _ hop _
        have hquiet : s.Quiet := by
          apply Quiet.ofCode hrun hstack
          cases hflow : a.flow with
          | onward =>
              cases hcode : b.code with
              | nil => simp [operation?, hrun, hstack, hblocks, hflow, hcode]
              | cons op rest => exact False.elim (hop op rest hflow hcode)
          | leavingLoop | returning result => simp [operation?, hrun, hstack, hblocks, hflow]
        split
        · rename_i e es _ hunwanted
          have hresult := Activation.entries_unwanted hunwanted
          apply turn_discard hquiet hstack hstacked
          · intro x
            simp only [<- hresult, hblocks, entryHoldings_handle, Activation.holdings,
              result_returning, holdings_empty, List.nil_append, List.count_append]
          · intro d hd
            simp only [<- hresult, Discipline.allowsCode, hblocks] at hd ⊢
            exact ⟨Discipline.allowsEntry_handle _, hd⟩
        · rename_i hentries
          exact turn_endBlock hquiet hstack hblocks hentries hstacked
        · rename_i e es _ hentries
          apply turn_discard hquiet hstack hstacked
          · intro x
            simp only [Activation.holdings, hblocks, List.flatMap_cons, Block.holdings, hentries,
              entryHoldings_nil, List.count_append, List.count_nil]
            omega
          · intro d hd
            simp only [Discipline.allowsCode, hblocks, List.all_cons, Discipline.allowsBlock,
              Bool.and_eq_true] at hd ⊢
            rw [hentries, List.all_cons, Bool.and_eq_true] at hd
            exact ⟨hd.1.2, ⟨⟨hd.1.1.1, rfl⟩, rfl⟩, hd.2⟩

end State

end Fibers
