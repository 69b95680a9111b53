import Fibers.Proofs.Turn.Block

/-!
# Steps that drop and unwind

The rest of what a context does by itself: calls that are waiting for a drop, the drops, the frames
that an unwind passes, and the lowest frames.
-/

namespace Fibers

/-! ## What may be dropped where -/

theorem CarriesDrop.active {entries : List Entry} {stack : List Frame}
    (h : CarriesDrop entries stack) : Active stack := by
  unfold CarriesDrop at h
  split at h
  · trivial
  · trivial
  · trivial
  · exact h.active

theorem CarriesDrop.tail {e : Entry} {entries : List Entry} {stack : List Frame}
    (h : CarriesDrop (e :: entries) stack) : CarriesDrop entries stack := by
  unfold CarriesDrop at h
  split at h
  case h_4 => exact h.carriesDrop
  all_goals
    simp only [List.all_cons, Bool.and_eq_true] at h
    exact h.2

/-- Only above code are there guards that run code. -/
theorem CarriesDrop.inCode {label : String} {op : Op} {ops : List Op} {entries : List Entry}
    {stack : List Frame} (h : CarriesDrop (.guard label (op :: ops) :: entries) stack) :
    InCode stack := by
  unfold CarriesDrop at h
  split at h
  · cases h
  · cases h
  · cases h
  · exact h

namespace State

variable {s : State}

/-! ## Calls that go on by themselves -/

theorem Quiet.ofCall {call : Call} {a : Activation} {below : List Frame} (hrun : s.control = .run)
    (hstack : s.stack = .calling call a :: below) : s.Quiet where
  run := hrun
  made := by simp [guardsMade, operation?, hrun, hstack]
  dropped := by simp [guardsDropped, hrun, hstack]
  swallows := by simp [State.swallows, hrun, hstack]

theorem Staged.ofCall {call : Call} {a : Activation} {below : List Frame}
    (hrun : s.control = .run) (hstack : s.stack = .calling call a :: below)
    (hin : InCode s.stack) (hstacked : Stacked (homeOf s.running) s.stack) :
    s.Staged ⟨s.world, a⟩ below call.holdings s.guardsMade := by
  have hquiet : s.Quiet := .ofCall hrun hstack
  rw [hquiet.made]
  rw [hstack] at hstacked hin
  have hresume : (Frame.calling call a).isResume = false := by
    cases call <;> first | rfl | exact False.elim hin
  apply Staged.ofTop hstack hstacked.2.2.1 hstacked.2.2.2 hstacked.2.1
  · intro x
    simp only [Frame.holdings, hrun, Control.holdings, List.count_append, List.count_nil]
    omega
  · simp [lease?, hrun, hstack, leaseOf]
  · simp [callsEnded, hrun, hstack, openCalls, hresume]
  · exact hquiet.dropped
  · exact hquiet.swallows
  · intro d hd
    simp only [Discipline.allowsFrame, Bool.and_eq_true] at hd
    exact hd.2

theorem turn_runCall {call : Call} {a : Activation} {below : List Frame} (hrun : s.control = .run)
    (hstack : s.stack = .calling call a :: below) (hin : InCode s.stack)
    (hstacked : Stacked (homeOf s.running) s.stack) : s.Turn (s.runCall call a below) := by
  have hstaged := Staged.ofCall hrun hstack hin hstacked
  cases call with
  | store pending n =>
      cases pending with
      | nil =>
          cases n with
          | none => exact hstaged.proceed
          | some n => exact (hstaged.note n).proceed
      | cons entry pending =>
          rcases entry with ⟨slot, h⟩
          have hput : s.Staged ((Scene.mk s.world a).put slot h).2 below
              (((Scene.mk s.world a).put slot h).1.holdings ++
                pending.flatMap fun entry => entry.2.holdings) s.guardsMade :=
            Staged.put hstaged slot
          simp only [runCall]
          rcases hslot : (Scene.mk s.world a).put slot h with ⟨old, scene⟩
          rw [hslot] at hput
          have hcall : Stacked (homeOf s.running) (.calling (.store pending n) scene.code :: below) :=
            ⟨trivial, hput.onward, hput.carries, hput.stacked⟩
          apply hput.dropAbove hcall trivial _ rfl rfl
          · exact fun _ _ => Discipline.allowsEntry_handle _
          · intro d hd
            simpa [Discipline.allowsFrame, Discipline.allowsCall] using hd
          · intro x
            simp only [entryHoldings_handle, Frame.holdings, Call.holdings, List.count_append]
            omega
  | failBuild cause =>
      have htraced := hstaged.world (w := s.world.trace .spanLeft) rfl (Nat.le_refl _) rfl
      exact (htraced.note (.buildFailed cause)).proceed
  | refuse refusal slot onRefusal =>
      have hnoted := hstaged.note (.refused refusal)
      cases onRefusal with
      | keep =>
          apply Staged.store none
          simpa [Call.holdings] using hnoted
      | discard =>
          have hdrop : s.Staged ((Scene.mk s.world a).note (.refused refusal)) below
              (entryHoldings refusal.handle.entries) s.guardsMade := by
            simpa [Call.holdings] using hnoted
          exact hdrop.drop fun _ _ => Discipline.allowsEntry_handle _
  | create slot | probe query reply purpose | resume host onTop target =>
      rw [hstack] at hin
      exact False.elim hin

/-! ## Unwinding -/

theorem Quiet.ofUnwind {cause : Unwind} {stack : List Frame} (hrun : s.control = .run)
    (hstack : s.stack = .discarding [] (some cause) :: stack) (hswallows : s.swallows = []) :
    s.Quiet where
  run := hrun
  made := by simp [guardsMade, operation?, hrun, hstack]
  dropped := by simp [guardsDropped, hrun, hstack]
  swallows := hswallows

/-- An unwind goes on into what lies below, dropping some of it first. -/
theorem turn_raise {cause : Unwind} {entries : List Entry} {w : World} {rest stack : List Frame}
    (h : s.Quiet) (hstack : s.stack = .discarding [] (some cause) :: rest)
    (hpass : cause.MayPass (homeOf s.running)) (hglobals : w.globals = s.world.globals)
    (hmemory : w.memory = s.world.memory) (hbooks : w.books = s.world.books)
    (hholdings : forall x, (entryHoldings entries).count x + (stackHoldings stack).count x =
      (stackHoldings rest).count x)
    (hcarries : CarriesUnwind stack) (hstacked : Stacked (homeOf s.running) stack)
    (hlease : leaseOf stack = leaseOf rest) (hcalls : openCalls stack = openCalls rest)
    (hobeys : forall d : Discipline, d.allowsStack rest = true ->
      entries.all d.allowsEntry = true ∧ d.allowsStack stack = true) :
    s.Turn (s.raise w cause entries stack) := by
  apply h.stay hmemory hbooks
  · intro x
    have hall := hholdings x
    simp only [World.holdings, hglobals, hstack, stackHoldings_cons, Frame.holdings,
      entryHoldings_nil, List.nil_append, List.count_append] at hall ⊢
    omega
  · exact ⟨hpass, hcarries, hstacked⟩
  · trivial
  · exact fun htidy => ⟨htidy.1.of_globals hglobals, trivial⟩
  · rw [hstack]
    exact hlease
  · rw [hstack]
    exact hcalls
  · intro d hd
    have hall : d.allowsStack rest = true := by
      simp only [hstack, Discipline.allowsStack, List.all_cons, Bool.and_eq_true] at hd
      exact hd.2
    have hsplit := hobeys d hall
    simp only [Discipline.allowsStack, List.all_cons, Discipline.allowsFrame, Bool.and_eq_true]
    exact hsplit

section UnwindCode

variable {cause : Unwind} {a : Activation} {below : List Frame} (hrun : s.control = .run)
  (hstack : s.stack = .discarding [] (some cause) :: .code a :: below)
  (hstacked : Stacked (homeOf s.running) s.stack)

include hrun hstack

/-- An unwind is discarded only where a block that does so is left with nothing in it. -/
theorem swallows_eq_nil
    (hnot : forall requester code outer, cause = .forced requester -> a.flow.result = .empty ->
      a.blocks ≠ ⟨.attempt true, code, []⟩ :: outer) : s.swallows = [] := by
  cases cause with
  | panic payload => simp [State.swallows, hrun, hstack]
  | forced requester =>
      simp only [State.swallows, hrun, hstack]
      split
      · rename_i code outer hresult hblocks
        exact absurd hblocks (hnot requester code outer rfl hresult)
      · rfl

include hstacked

theorem turn_raiseCode {w : World} {entries : List Entry} {a' : Activation}
    (hswallows : s.swallows = []) (hglobals : w.globals = s.world.globals)
    (hmemory : w.memory = s.world.memory) (hbooks : w.books = s.world.books)
    (hholdings : forall x,
      (entryHoldings entries).count x + a'.holdings.count x = a.holdings.count x)
    (hobeys : forall d : Discipline, d.allowsCode a = true ->
      entries.all d.allowsEntry = true ∧ d.allowsCode a' = true) :
    s.Turn (s.raise w cause entries (.code a' :: below)) := by
  rw [hstack] at hstacked
  rcases hstacked with ⟨hpass, -, hcarries, hbelow⟩
  apply turn_raise (.ofUnwind hrun hstack hswallows) hstack hpass hglobals hmemory hbooks
  · intro x
    have hcode := hholdings x
    simp only [stackHoldings_cons, Frame.holdings, List.count_append]
    omega
  · exact Or.inl trivial
  · exact ⟨hcarries, hbelow⟩
  · rfl
  · rfl
  · intro d hd
    simp only [Discipline.allowsStack, List.all_cons, Discipline.allowsFrame,
      Bool.and_eq_true] at hd ⊢
    have hcode := hobeys d hd.1
    exact ⟨hcode.1, hcode.2, hd.2⟩

theorem turn_caught {n : Note} {outer : List Block}
    (hgone : forall x, s.gone.count x = cause.holdings.count x)
    (hholdings : { a with flow := .onward, blocks := outer }.holdings = a.holdings)
    (hobeys : forall d : Discipline, d.allowsCode a = true -> outer.all d.allowsBlock = true) :
    s.Turn (s.go (s.world.note a.label n)
      (.code { a with flow := .onward, blocks := outer } :: below)) := by
  have hbelow := hstacked
  rw [hstack] at hbelow
  apply stayOn hrun
  · simp [guardsMade, operation?, hrun, hstack]
  · rfl
  · simp [guardsDropped, hrun, hstack, Books.adjust]
  · intro x
    have hcause := hgone x
    have hworld : (s.world.note a.label n).holdings = s.world.holdings := rfl
    simp only [hworld, hstack, stackHoldings_cons, Frame.holdings, hholdings, entryHoldings_nil,
      Option.toList_some, List.flatMap_cons, List.flatMap_nil, List.append_nil, List.nil_append,
      List.count_append]
    omega
  · exact hbelow.2.2
  · trivial
  · exact fun htidy => ⟨htidy.1, trivial⟩
  · rw [hstack]
    rfl
  · rw [hstack]
    rfl
  · intro d hd
    simp only [hstack, Discipline.allowsStack, List.all_cons, Discipline.allowsFrame,
      Bool.and_eq_true] at hd ⊢
    exact ⟨hobeys d hd.2.1, hd.2.2⟩

theorem turn_unwindBlock {b : Block} {outer : List Block} (hresult : a.flow.result = .empty)
    (hblocks : a.blocks = b :: outer) : s.Turn (s.unwindCode cause a below) := by
  have hkeeps : forall d : Discipline, d.allowsCode a = true ->
      d.allowsKind b.kind = true ∧ b.entries.all d.allowsEntry = true ∧
        outer.all d.allowsBlock = true := by
    intro d hd
    simp only [Discipline.allowsCode, hblocks, List.all_cons, Discipline.allowsBlock,
      Bool.and_eq_true] at hd
    exact ⟨hd.1.1.1, hd.1.2, hd.2⟩
  cases hentries : b.entries with
  | cons e es =>
      have hswallows := swallows_eq_nil hrun hstack (by
        intro requester code rest _ _ heq
        rw [hblocks, List.cons.injEq] at heq
        simp [heq.1] at hentries)
      simp only [unwindCode, hresult, Handle.entries, hblocks, hentries]
      apply turn_raiseCode hrun hstack hstacked hswallows rfl rfl rfl
      · intro x
        simp [Activation.holdings, hresult, hblocks, Block.holdings, hentries, Nat.add_assoc]
      · intro d hd
        have hcode := hkeeps d hd
        rw [hentries] at hcode
        refine ⟨hcode.2.1, ?_⟩
        simp only [Discipline.allowsCode, List.all_cons, Discipline.allowsBlock,
          Bool.and_eq_true]
        exact ⟨⟨⟨hcode.1, rfl⟩, rfl⟩, hcode.2.2⟩
  | nil =>
      have hafter : { a with flow := .onward, blocks := outer }.holdings = a.holdings := by
        simp [Activation.holdings, hresult, hblocks, Block.holdings, hentries]
      have hobeys : forall d : Discipline, d.allowsCode a = true ->
          outer.all d.allowsBlock = true := fun d hd => (hkeeps d hd).2.2
      simp only [unwindCode, hresult, Handle.entries, hblocks, hentries]
      split
      · apply turn_caught hrun hstack hstacked _ hafter hobeys
        simp [gone, guardsDropped, State.swallows, hrun, hstack, Unwind.holdings]
      · rename_i hkind
        rcases b with ⟨kind, code, entries⟩
        cases hkind
        cases hentries
        apply turn_caught hrun hstack hstacked _ hafter hobeys
        simp [gone, guardsDropped, State.swallows, hrun, hstack, hresult, hblocks,
          Unwind.holdings]
      all_goals
        have hswallows := swallows_eq_nil hrun hstack (by
          intro requester code rest _ _ heq
          rw [hblocks, List.cons.injEq] at heq
          simp_all)
        refine turn_raiseCode hrun hstack hstacked hswallows ?_ ?_ ?_ ?_ ?_
        · rfl
        · rfl
        · rfl
        · intro x
          rw [hafter]
          exact Nat.zero_add _
        · exact fun d hd => ⟨rfl, hobeys d hd⟩

theorem turn_unwindCode : s.Turn (s.unwindCode cause a below) := by
  cases hresult : a.flow.result with
  | live c =>
      have hswallows := swallows_eq_nil hrun hstack (by simp [hresult])
      simp only [unwindCode, hresult, Handle.entries]
      apply turn_raiseCode hrun hstack hstacked hswallows rfl rfl rfl
      · intro x
        simp [Activation.holdings, hresult, Entry.unnamed, Entry.holdings]
      · exact fun d hd => ⟨rfl, hd⟩
  | empty =>
      cases hblocks : a.blocks with
      | cons b outer => exact turn_unwindBlock hrun hstack hstacked hresult hblocks
      | nil =>
          have hswallows := swallows_eq_nil hrun hstack (by simp [hblocks])
          rw [hstack] at hstacked
          simp only [unwindCode, hresult, Handle.entries, hblocks]
          apply turn_raise (.ofUnwind hrun hstack hswallows) hstack hstacked.1 rfl rfl rfl
          · intro x
            simp [Frame.holdings, Activation.holdings, hresult, hblocks]
          · exact Or.inr hstacked.2.2.1
          · exact hstacked.2.2.2
          · rfl
          · rfl
          · intro d hd
            simp only [Discipline.allowsStack, List.all_cons, Bool.and_eq_true] at hd
            exact ⟨rfl, hd.2⟩

end UnwindCode

/-- An unwind passes a call that waits for a drop: what the call holds goes, the code stays. -/
theorem turn_unwindCall {cause : Unwind} {call : Call} {a : Activation} {below : List Frame}
    {w : World} {entries : List Entry} (hrun : s.control = .run)
    (hstack : s.stack = .discarding [] (some cause) :: .calling call a :: below)
    (hstacked : Stacked (homeOf s.running) s.stack) (hresume : (Frame.calling call a).isResume = false)
    (hglobals : w.globals = s.world.globals) (hmemory : w.memory = s.world.memory)
    (hbooks : w.books = s.world.books) (hholdings : entryHoldings entries = call.holdings)
    (hobeys : forall d : Discipline, entries.all d.allowsEntry = true) :
    s.Turn (s.raise w cause entries (.code a :: below)) := by
  have hswallows : s.swallows = [] := by
    cases cause <;> simp [State.swallows, hrun, hstack]
  rw [hstack] at hstacked
  rcases hstacked with ⟨hpass, -, -, -, hcarries, hbelow⟩
  apply turn_raise (.ofUnwind hrun hstack hswallows) hstack hpass hglobals hmemory hbooks
  · intro x
    simp only [hholdings, stackHoldings_cons, Frame.holdings, List.count_append]
    omega
  · exact Or.inl trivial
  · exact ⟨hcarries, hbelow⟩
  · rfl
  · have hcode : (Frame.code a).isResume = false := rfl
    simp [openCalls, hresume, hcode]
  · intro d hd
    simp only [Discipline.allowsStack, List.all_cons, Discipline.allowsFrame,
      Bool.and_eq_true] at hd ⊢
    exact ⟨hobeys d, hd.1.2, hd.2⟩

theorem turn_unwindInto {cause : Unwind} {stack : List Frame} (hrun : s.control = .run)
    (hstack : s.stack = .discarding [] (some cause) :: stack)
    (hstacked : Stacked (homeOf s.running) s.stack) : s.Turn (s.unwindInto cause stack) := by
  have hall := hstacked
  rw [hstack] at hall
  rcases hall with ⟨hpass, hcarries, hbelow⟩
  unfold unwindInto
  split
  · exact turn_unwindCode hrun hstack hstacked
  · exact turn_unwindCall hrun hstack hstacked rfl rfl rfl rfl rfl fun _ => rfl
  · rename_i refusal slot onRefusal a below
    apply turn_unwindCall hrun hstack hstacked rfl rfl rfl rfl (entryHoldings_handle _)
    exact fun _ => Discipline.allowsEntry_handle _
  · rename_i pending n a below
    apply turn_unwindCall hrun hstack hstacked rfl rfl rfl rfl
    · exact entryHoldings_pending pending
    · exact fun _ => Discipline.allowsEntry_pending pending
  · rename_i entries below
    have hquiet : s.Quiet := .ofUnwind hrun hstack (by
      cases cause <;> simp [State.swallows, hrun, hstack])
    apply turn_raise hquiet hstack hpass rfl rfl rfl
    · intro x
      simp [Frame.holdings]
    · rcases hcarries with hcode | hcode
      · exact False.elim hcode
      · exact Or.inl hcode
    · exact hbelow.2
    · rfl
    · rfl
    · intro d hd
      simpa [Discipline.allowsStack, Discipline.allowsFrame] using hd
  · exact Turn.halt (.doubleUnwind hrun hstack)
  · rename_i source below
    split
    · exact Turn.halt (.onTopPanicked hrun hstack)
    · rename_i requester
      have hquiet : s.Quiet := .ofUnwind hrun hstack (by simp [State.swallows, hrun, hstack])
      apply hquiet.uncover (m := .eviction) hstack rfl _ rfl hbelow.1 ⟨hbelow.2, hbelow.1⟩
      rw [hstack]
      rfl
  · rename_i lease below
    split
    · exact Turn.halt (.bodyPanicked hrun hstack)
    · rename_i requester
      have hquiet : s.Quiet := .ofUnwind hrun hstack (by simp [State.swallows, hrun, hstack])
      apply hquiet.stay rfl rfl
      · intro x
        simp [hstack, Frame.holdings, FiberStage.holdings, Ending.holdings, Unwind.holdings]
      · exact ⟨hbelow.1, trivial, hbelow.2.2⟩
      · trivial
      · exact fun htidy => ⟨htidy.1, trivial⟩
      · rw [hstack]
        rfl
      · rw [hstack]
        rfl
      · intro d hd
        simp_all [Discipline.allowsStack, Discipline.allowsFrame]
  · rcases hcarries with hcode | hcode
    · exact False.elim hcode
    · exact False.elim hcode
  · rename_i stage below
    split
    · have hquiet : s.Quiet := .ofUnwind hrun hstack (by simp [State.swallows, hrun, hstack])
      apply hquiet.stay rfl rfl
      · intro x
        simp [hstack, Frame.holdings, Unwind.holdings]
      · exact hbelow
      · trivial
      · exact fun htidy => ⟨htidy.1, trivial⟩
      · rw [hstack]
        rfl
      · rw [hstack]
        rfl
      · intro d hd
        simp_all [Discipline.allowsStack, Discipline.allowsFrame]
    · exact absurd (hpass.symm.trans hbelow.1) (by decide)
  · rename_i hother
    exfalso
    rcases hcarries with hcode | hcode
    · unfold InCode at hcode
      split at hcode <;> grind
    · unfold CarriesCode at hcode
      split at hcode <;> grind

/-! ## Drops -/

theorem stacked_rest {k : StackKind} {e : Entry} {rest : List Entry} {cause : Option Unwind}
    {below : List Frame} (h : Stacked k (.discarding (e :: rest) cause :: below)) :
    Stacked k (.discarding rest cause :: below) := by
  cases cause with
  | none => exact ⟨h.1.tail, h.2⟩
  | some cause => exact h

theorem turn_abandon {slot : SlotName} {fiber : ContextId} {rest : List Entry}
    {cause : Option Unwind} {below : List Frame} (hrun : s.control = .run)
    (hstack : s.stack = .discarding (.slot slot (.live fiber) :: rest) cause :: below)
    (hstacked : Stacked (homeOf s.running) s.stack) :
    s.Turn (s.transfer (s.world.trace (.abandoned fiber))
      (.dropping :: .discarding rest cause :: below) fiber (.message .eviction)) := by
  have hquiet : s.Quiet :=
    { run := hrun
      made := by simp [guardsMade, operation?, hrun, hstack]
      dropped := by simp [guardsDropped, hrun, hstack]
      swallows := by simp [State.swallows, hrun, hstack] }
  rw [hstack] at hstacked
  apply Turn.switch .handle
  exact
    { balance := by
        intro x
        have hworld : (s.world.trace (.abandoned fiber)).holdings = s.world.holdings := rfl
        simp only [hworld, pool, made, hquiet.made, hstack, hrun, stackHoldings_cons, Frame.holdings,
          entryHoldings_cons, Entry.holdings, Handle.holdings, Control.holdings, List.count_append,
          List.map_nil, List.count_nil]
        omega
      stacked := ⟨trivial, stacked_rest hstacked⟩
      once := id
      lease := by simp [lease?, hrun, hstack, leaseOf]
      calls := by
        rw [hstack]
        exact List.suffix_refl _
      obeys := by
        intro d hd
        have hall := hd.1
        simp_all [Discipline.allowsStack, Discipline.allowsFrame]
      quiet := ⟨hquiet.gone, hquiet.callsEnded⟩
      memory := Nat.le_refl _
      books := hquiet.booksAfter.symm
      returns := ⟨.request, rfl, rfl⟩
      lands := fun k there hneed hthere => ⟨hthere, hneed⟩ }

/-- The guard on top of what is dropped goes, and what it does at its end runs above the rest. -/
theorem turn_dropGuard {label : String} {onDrop : List Op} {rest : List Entry}
    {cause : Option Unwind} {below stack : List Frame} (hrun : s.control = .run)
    (hstack : s.stack = .discarding (.guard label onDrop :: rest) cause :: below)
    (hholdings : stackHoldings stack = stackHoldings (.discarding rest cause :: below))
    (hstacked : Stacked (homeOf s.running) stack) (hactive : Active stack)
    (htidy : s.world.NamesOnce -> Tidy s.world stack)
    (hlease : leaseOf stack = leaseOf below) (hcalls : openCalls stack = openCalls below)
    (hobeys : forall d : Discipline, d.allowsStack s.stack = true -> d.allowsStack stack = true) :
    s.Turn (s.go ({ s.world with liveGuards := s.world.liveGuards - 1 }.report
      (.dropped label s.kind)) stack) := by
  have hdropped : s.guardsDropped = [label] := by simp [guardsDropped, hrun, hstack]
  apply stayOn hrun
  · simp [guardsMade, operation?, hrun, hstack]
  · rfl
  · rw [hdropped]
    simp [Books.adjust, World.books, World.report, LogEntry.guard?]
  · intro x
    have hswallows : s.swallows = [] := by simp [State.swallows, hrun, hstack]
    simp only [World.holdings, World.report, gone, hdropped, hswallows, hholdings, hstack,
      stackHoldings_cons, Frame.holdings, entryHoldings_cons, Entry.holdings, List.count_append,
      List.map_cons, List.map_nil, List.count_nil]
    omega
  · exact hstacked
  · exact hactive
  · exact fun hbefore => htidy hbefore.1
  · rw [hlease, hstack]
    rfl
  · rw [hcalls, hstack]
    rfl
  · exact hobeys

theorem turn_runDiscarding {entries : List Entry} {cause : Option Unwind} {below : List Frame}
    (hrun : s.control = .run) (hstack : s.stack = .discarding entries cause :: below)
    (hstacked : Stacked (homeOf s.running) s.stack) :
    s.Turn (s.runDiscarding entries cause below) := by
  have hall := hstacked
  rw [hstack] at hall
  have hmade : s.guardsMade = [] := by simp [guardsMade, operation?, hrun, hstack]
  cases entries with
  | nil =>
      cases cause with
      | some cause => exact turn_unwindInto hrun hstack hstacked
      | none =>
          have hquiet : s.Quiet :=
            { run := hrun
              made := hmade
              dropped := by simp [guardsDropped, hrun, hstack]
              swallows := by simp [State.swallows, hrun, hstack] }
          apply hquiet.stay rfl rfl
          · intro x
            simp [hstack, Frame.holdings]
          · exact hall.2
          · exact hall.1.active
          · exact fun htidy => .of_carriesDrop htidy.1 hall.1
          · rw [hstack]
            rfl
          · rw [hstack]
            rfl
          · intro d hd
            simp_all [Discipline.allowsStack, Discipline.allowsFrame]
  | cons e rest =>
      cases e with
      | slot name h =>
          cases h with
          | live fiber => exact turn_abandon hrun hstack hstacked
          | empty =>
              have hquiet : s.Quiet :=
                { run := hrun
                  made := hmade
                  dropped := by simp [guardsDropped, hrun, hstack]
                  swallows := by simp [State.swallows, hrun, hstack] }
              apply hquiet.stay rfl rfl
              · intro x
                simp [hstack, Frame.holdings, Entry.holdings]
              · exact stacked_rest hall
              · trivial
              · exact fun htidy => ⟨htidy.1, trivial⟩
              · rw [hstack]
                rfl
              · rw [hstack]
                rfl
              · intro d hd
                simp_all [Discipline.allowsStack, Discipline.allowsFrame]
      | guard label onDrop =>
          have hrest := stacked_rest hall
          cases onDrop with
          | nil =>
              apply turn_dropGuard hrun hstack rfl hrest trivial (fun honce => ⟨honce, trivial⟩) rfl rfl
              intro d hd
              simp_all [Discipline.allowsStack, Discipline.allowsFrame]
          | cons op ops =>
              apply turn_dropGuard hrun hstack
              · simp [Frame.holdings, Activation.ofCode, Activation.holdings, Block.holdings]
              · refine ⟨?_, hrest⟩
                cases cause with
                | none => exact hall.1.inCode
                | some cause => trivial
              · trivial
              · exact fun honce => ⟨honce, trivial⟩
              · rfl
              · rfl
              · intro d hd
                simp only [hstack, Discipline.allowsStack, List.all_cons, Discipline.allowsFrame,
                  Discipline.allowsEntry, Bool.and_eq_true] at hd ⊢
                refine ⟨?_, hd.1.2, hd.2⟩
                simp [Activation.ofCode, Discipline.allowsCode, Discipline.allowsBlock,
                  Discipline.allowsKind, hd.1.1.2]

/-! ## The lowest frames -/

theorem turn_runRoot {stage : RootStage} {below : List Frame} (hrun : s.control = .run)
    (hstack : s.stack = .root stage :: below) (hactive : Active s.stack)
    (hstacked : Stacked (homeOf s.running) s.stack) : s.Turn (s.runRoot stage below) := by
  have hquiet : s.Quiet :=
    { run := hrun
      made := by simp [guardsMade, operation?, hrun, hstack]
      dropped := by simp [guardsDropped, hrun, hstack]
      swallows := by simp [State.swallows, hrun, hstack] }
  rw [hstack] at hactive hstacked
  -- The frame of the main program stays the lowest one, whatever its stage and what is above it.
  have hgo : forall (w : World) (stage' : RootStage) (h : Handle), w.memory = s.world.memory ->
      w.books = s.world.books ->
      (forall x, w.holdings.count x + h.holdings.count x = s.world.holdings.count x) ->
      Active (.root stage' :: below) ->
      Stacked (homeOf s.running) (dropFirst h.entries (.root stage' :: below)) ->
      (Tidy s.world s.stack -> Tidy w (dropFirst h.entries (.root stage' :: below))) ->
      s.Turn (s.go w (dropFirst h.entries (.root stage' :: below))) := by
    intro w stage' h hmemory hbooks hholdings hactive hroot htidy
    apply hquiet.stay hmemory hbooks
    · intro x
      have hall := hholdings x
      simp only [hstack, stackHoldings_dropFirst, entryHoldings_handle, stackHoldings_cons,
        Frame.holdings, List.count_append, List.count_nil]
      omega
    · exact hroot
    · exact hactive.dropFirst
    · exact htidy
    · simp [hstack, leaseOf]
    · simp [hstack, openCalls, Frame.isResume]
    · intro d hd
      cases h <;>
        simp_all [dropFirst, Handle.entries, Entry.unnamed, Discipline.allowsStack,
          Discipline.allowsFrame, Discipline.allowsEntry]
  have hroot : forall stage' : RootStage, Stacked (homeOf s.running) (.root stage' :: below) :=
    fun _ => hstacked
  cases stage with
  | program => exact False.elim hactive
  | ending =>
      exact hgo _ _ .empty rfl rfl (fun _ => rfl) trivial (hroot _)
        fun htidy => ⟨htidy.1, trivial⟩
  | draining rounds names found panic =>
      cases names with
      | cons name names =>
          have hmemory := World.memory_take (w := s.world) name
          have hbooks := World.books_take (w := s.world) name
          have hcount := fun x => s.world.take_count (x := x) name
          have honce := fun h : s.world.NamesOnce => h.take name
          simp only [runRoot]
          rcases htake : s.world.take name with ⟨h, w⟩
          simp only [htake] at hmemory hbooks hcount honce
          have htaken := hgo w
          cases h with
          | live fiber =>
              refine htaken _ (.live fiber) hmemory hbooks (fun x => ?_) trivial
                ⟨rfl, hroot _⟩ fun htidy => ⟨honce htidy.1, trivial⟩
              exact (Nat.add_comm _ _).trans (hcount x)
          | empty =>
              refine htaken _ .empty hmemory hbooks (fun x => ?_) trivial (hroot _) ?_
              · exact (Nat.add_comm _ _).trans (hcount x)
              · intro htidy
                rw [hstack] at htidy
                cases found with
                | true => exact ⟨honce htidy.1, trivial⟩
                | false => exact htidy.pass htake
      | nil =>
          cases rounds with
          | zero => exact Turn.halt (.drained hrun hstack fun _ => rfl)
          | succ rounds =>
              cases found with
              | false => exact Turn.halt (.drained hrun hstack (fun h => absurd h (by decide)))
              | true =>
                  refine hgo _ _ .empty rfl rfl (fun _ => rfl) trivial (hroot _) fun htidy => ?_
                  exact ⟨htidy.1, fun name h hmem _ => World.mem_globalNames hmem⟩

theorem turn_runBase {stage : FiberStage} {below : List Frame} (hrun : s.control = .run)
    (hstack : s.stack = .base stage :: below) (hactive : Active s.stack)
    (hstacked : Stacked (homeOf s.running) s.stack) : s.Turn (s.runBase stage below) := by
  have hquiet : s.Quiet :=
    { run := hrun
      made := by simp [guardsMade, operation?, hrun, hstack]
      dropped := by simp [guardsDropped, hrun, hstack]
      swallows := by simp [State.swallows, hrun, hstack] }
  rw [hstack] at hactive hstacked
  -- What a fiber has left to hand over is the token of the context that goes on after it.
  have hparks : forall (lease : Lease) (ending : Ending), stage = .leaving lease ending ->
      s.Parks (s.world.trace (.exiting lease.name)) (.base (.exited lease) :: below)
        ending.holdings := by
    intro lease ending hstage
    rw [hstage] at hstack
    exact
      { balance := by
          intro x
          have hworld : (s.world.trace (.exiting lease.name)).holdings = s.world.holdings := rfl
          simp only [hworld, pool, made, hquiet.made, hstack, hrun, stackHoldings_cons, Frame.holdings,
            FiberStage.holdings, Control.holdings, List.count_append, List.map_nil, List.count_nil]
          omega
        stacked := ⟨hstacked.1, trivial, hstacked.2.2⟩
        once := id
        lease := by simp [lease?, hrun, hstack, leaseOf, FiberStage.lease?]
        calls := by
          rw [hstack]
          exact List.suffix_refl _
        obeys := by
          intro d hd
          have hall := hd.1
          simp_all [Discipline.allowsStack, Discipline.allowsFrame]
        quiet := ⟨hquiet.gone, hquiet.callsEnded⟩ }
  have hbooks : s.world.books = s.booksAfter := hquiet.booksAfter.symm
  cases stage with
  | leaving lease ending =>
      have hpark := hparks lease ending rfl
      cases ending with
      | returned next =>
          apply Turn.switch .handle
          exact
            { hpark with
              memory := Nat.le_refl _
              books := hbooks
              returns := ⟨.remains, rfl, rfl⟩
              lands := fun k there hneed hthere => ⟨hthere, Or.inl hneed⟩ }
      | unwound requester =>
          apply Turn.switch .request
          exact
            { hpark with
              memory := Nat.le_refl _
              books := hbooks
              returns := ⟨.remains, rfl, rfl⟩
              lands := fun k there hneed hthere => ⟨hthere, Or.inr hneed⟩ }
  | unborn | idle record | busy lease | exited lease => exact False.elim hactive

end State

end Fibers
