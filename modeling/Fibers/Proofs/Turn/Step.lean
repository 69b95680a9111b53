import Fibers.Proofs.Turn.Drop

/-!
# Every step is one of these

What becomes of a switch that has landed, and the summary: whatever the running context does, it is
one of the kinds of steps.
-/

namespace Fibers

/-- A question is answered by every reply to its query. -/
theorem Question.note?_of_query {reply : Reply} (q : Question) (hosts : HostTable)
    (h : reply.query = q.query) : exists n, q.note? hosts reply = some n := by
  cases q <;> cases reply <;> first | exact ⟨_, rfl⟩ | cases h

namespace State

variable {s : State}

/-! ## Arrivals -/

section Arrivals

variable {source : ContextId} {m : Message} {call : Call} {a : Activation} {below : List Frame}
  (hcontrol : s.control = .landed source (.message m))

include hcontrol

/-- Code that was waiting is staged with what its call holds, and what has come, in hand. -/
theorem Staged.ofLanded (hstack : s.stack = .calling call a :: below)
    (hstacked : Stacked (homeOf s.running) s.stack)
    (hcalls : openCalls s.stack = s.callsEnded ++ openCalls below) :
    s.Staged ⟨s.world, a⟩ below ((Signal.message m).holdings source ++ call.holdings)
      s.guardsMade := by
  rw [guardsMade_landed hcontrol]
  rw [hstack] at hstacked
  apply Staged.ofTop hstack hstacked.2.2.1 hstacked.2.2.2 hstacked.2.1
  · intro x
    simp only [hcontrol, Control.holdings, Frame.holdings, List.count_append]
    omega
  · simp [lease?, hcontrol, hstack, leaseOf]
  · exact hcalls
  · exact guardsDropped_landed hcontrol
  · exact swallows_landed hcontrol
  · intro d hd
    simp only [Discipline.allowsFrame, Bool.and_eq_true] at hd
    exact hd.2

theorem stayLanded {w : World} {stack : List Frame} (hglobals : w.globals = s.world.globals)
    (hmemory : w.memory = s.world.memory) (hbooks : w.books = s.world.books)
    (hbalance : forall x, (stackHoldings stack).count x =
      (stackHoldings s.stack).count x + ((Signal.message m).holdings source).count x)
    (hstacked : Stacked (homeOf s.running) stack) (hactive : Active stack)
    (htidy : s.world.NamesOnce -> Tidy s.world stack)
    (hlease : leaseOf stack = leaseOf s.stack)
    (hcalls : openCalls s.stack = s.callsEnded ++ openCalls stack)
    (hobeys : forall d : Discipline,
      d.allowsStack s.stack = true -> d.allowsStack stack = true) :
    s.Turn (s.go w stack) := by
  have hmade := guardsMade_landed hcontrol
  have hdropped := guardsDropped_landed hcontrol
  have hswallows := swallows_landed hcontrol
  apply Turn.stay
  exact
    { running := rfl
      contexts := rfl
      memory := Nat.le_of_eq (congrArg Memory.next hmemory.symm)
      books := by
        rw [booksAfter, hmade, hdropped, hbooks]
        simp [Books.adjust]
      balance := by
        intro x
        have hall := hbalance x
        simp only [pool, gone, made, hmade, hdropped, hswallows, hcontrol, Control.holdings,
          World.holdings, hglobals, List.count_append, List.map_nil, List.count_nil]
        omega
      stands := ⟨hstacked, hactive⟩
      tidy := fun hbefore => (htidy hbefore.1).of_globals hglobals
      lease := by simp only [lease?, hcontrol, hlease]
      calls := hcalls
      obeys := fun d hd => ⟨hobeys d hd.1, rfl⟩ }

end Arrivals

theorem turn_created {source : ContextId} {slot : SlotName} {a : Activation} {below : List Frame}
    (hcontrol : s.control = .landed source (.message .handover))
    (hstack : s.stack = .calling (.create slot) a :: below)
    (hstacked : Stacked (homeOf s.running) s.stack) :
    s.Turn (s.go ((s.world.trace (.created source)).trace .spanLeft)
      (.calling (.store [(slot, .live source)] none) a :: below)) := by
  have hstaged := Staged.ofLanded hcontrol hstack hstacked (by
    simp [callsEnded, hcontrol, hstack, openCalls, Frame.isResume])
  have htraced := hstaged.world
    (w := (s.world.trace (.created source)).trace .spanLeft) rfl (Nat.le_refl _) rfl
  show s.Turn (s.store ⟨_, a⟩ below [(slot, .live source)] none)
  apply Staged.store
  exact htraced

theorem turn_deliver {source : ContextId} {m : Message} {h : Handle} {host : Host}
    {onTop : Option Closure} {target : SlotName} {a : Activation} {below : List Frame}
    (hcontrol : s.control = .landed source (.message m))
    (hstack : s.stack = .calling (.resume host onTop target) a :: below)
    (hstacked : Stacked (homeOf s.running) s.stack)
    (hh : (Signal.message m).holdings source = h.holdings)
    (hended : s.callsEnded = [below.length]) :
    s.Turn (s.deliver h onTop target a below) := by
  have hstaged := Staged.ofLanded hcontrol hstack hstacked (by
    simp [hended, hstack, openCalls, Frame.isResume])
  have hnoted := hstaged.note (.resumed h)
  apply hnoted.dropAbove
  · exact ⟨trivial, hnoted.onward, hnoted.carries, hnoted.stacked⟩
  · trivial
  · intro x
    simp only [hh, Frame.holdings, Call.holdings, List.count_append, List.flatMap_cons,
      List.flatMap_nil, List.append_nil]
    omega
  · rfl
  · rfl
  · intro d hd
    have hall := hd.1
    simp only [hstack, Discipline.allowsStack, List.all_cons, Discipline.allowsFrame,
      Discipline.allowsCall, Bool.and_eq_true] at hall
    exact Discipline.allowsEntry_leftover hall.1.1
  · intro d hd
    simpa [Discipline.allowsFrame, Discipline.allowsCall] using hd

/-- The reply to a probe fits what the probe was made for. -/
theorem turn_conclude {source : ContextId} {query : Query} {reply : Reply} {purpose : ProbePurpose}
    {a : Activation} {below : List Frame}
    (hcontrol : s.control = .landed source (.message .handover))
    (hstack : s.stack = .calling (.probe query (some reply) purpose) a :: below)
    (hstacked : Stacked (homeOf s.running) s.stack) :
    s.Turn (s.conclude ⟨s.world, a⟩ below source reply purpose) := by
  have hended : s.callsEnded = [] := by simp [callsEnded, hcontrol, hstack]
  have hstaged := Staged.ofLanded hcontrol hstack hstacked (by
    simp [hended, hstack, openCalls, Frame.isResume])
  have hreply : reply.query = purpose.query := by
    rw [hstack] at hstacked
    rw [hstacked.1.1]
    exact hstacked.1.2 reply rfl
  cases purpose with
  | question question slot =>
      rcases question.note?_of_query s.world.hosts hreply with ⟨n, hn⟩
      simp only [conclude, hn]
      show s.Turn (s.store ⟨_, a⟩ below [(slot, .live source)] (some n))
      apply Staged.store
      exact hstaged
  | check switch onTop =>
      cases reply with
      | stackKind kind => cases hreply
      | affinity binding =>
          have hclosure : forall d, s.ObeysNow d ->
              onTop.toList.all d.allowsClosure = true := by
            intro d hd
            have hall := hd.1
            simp only [hstack, Discipline.allowsStack, List.all_cons, Discipline.allowsFrame,
              Discipline.allowsCall, Bool.and_eq_true] at hall
            exact hall.1.1
          simp only [conclude]
          split
          · exact hstaged.depart switch hended hclosure
          · have htraced := hstaged.world
              (w := s.world.trace (.refusing (s.world.hosts.resolve switch.host) binding)) rfl
              (Nat.le_refl _) rfl
            apply htraced.dropAbove
            · exact ⟨trivial, htraced.onward, htraced.carries, htraced.stacked⟩
            · trivial
            · intro x
              simp only [Frame.holdings, Call.holdings, ProbePurpose.holdings, Handle.holdings,
                Signal.holdings, List.count_append]
              omega
            · rfl
            · rfl
            · exact fun d hd => Discipline.allowsEntry_leftover (hclosure d hd)
            · intro d hd
              simpa [Discipline.allowsFrame, Discipline.allowsCall] using hd

theorem turn_evicted {source : ContextId} {host : Host} {onTop : Option Closure}
    {target : SlotName} {a : Activation} {below : List Frame}
    (hcontrol : s.control = .landed source (.message .eviction))
    (hstack : s.stack = .calling (.resume host onTop target) a :: below)
    (hstacked : Stacked (homeOf s.running) s.stack) (hfiber : homeOf s.running = .fiber) :
    s.Turn (s.raise (s.world.trace (.forcedUnwind source)) (.forced source)
      (Closure.leftover onTop) (.code a :: below)) := by
  have hended : s.callsEnded = [below.length] := by simp [callsEnded, hcontrol, hstack]
  have hstaged := Staged.ofLanded hcontrol hstack hstacked (by
    simp [hended, hstack, openCalls, Frame.isResume])
  have htraced := hstaged.world
    (w := s.world.trace (.forcedUnwind source)) rfl (Nat.le_refl _) rfl
  apply htraced.stay
  · intro x
    simp only [stackHoldings_cons, Frame.holdings, Unwind.holdings, Signal.holdings,
      Call.holdings, Option.toList_some, List.flatMap_cons, List.flatMap_nil, List.append_nil,
      List.count_append]
    omega
  · exact ⟨hfiber, Or.inl trivial, htraced.carries, htraced.stacked⟩
  · trivial
  · exact fun honce => ⟨honce, trivial⟩
  · rfl
  · rfl
  · intro d hd hcode hbelow
    have hall := hd.1
    simp only [hstack, Discipline.allowsStack, List.all_cons, Discipline.allowsFrame,
      Discipline.allowsCall, Bool.and_eq_true] at hall ⊢
    exact ⟨Discipline.allowsEntry_leftover hall.1.1, hcode, hbelow⟩

theorem turn_callBody {source : ContextId} {m : Message} {caller : Handle} {record : Record}
    {below : List Frame} (hcontrol : s.control = .landed source (.message m))
    (hstack : s.stack = .base (.idle record) :: below)
    (hstacked : Stacked (homeOf s.running) s.stack)
    (hcaller : (Signal.message m).holdings source = caller.holdings) :
    s.Turn (s.callBody record caller below) := by
  have hall := hstacked
  rw [hstack] at hall
  rcases hall with ⟨hfiber, ⟨body, hbody, hplain⟩, hbelow⟩
  simp only [callBody, hbody]
  apply stayLanded (w := s.world.trace (.dispatching record.lease.name)) hcontrol rfl rfl rfl
  · intro x
    simp only [hcaller, hstack, stackHoldings_cons, Frame.holdings, FiberStage.holdings,
      Record.holdings, hbody, Closure.leftover, Closure.activation, Activation.holdings,
      Block.holdings, entryHoldings_cons, Entry.holdings, result_onward, holdings_empty,
      List.flatMap_cons, List.flatMap_nil, List.count_append, List.count_nil]
    omega
  · exact ⟨trivial, hfiber, trivial, hbelow⟩
  · trivial
  · exact fun honce => ⟨honce, trivial⟩
  · rw [hstack]
    rfl
  · simp [callsEnded, hcontrol, hstack, openCalls, Frame.isResume]
  · intro d hd
    simp only [hstack, Discipline.allowsStack, List.all_cons, Discipline.allowsFrame, hbody,
      Option.toList_some, Discipline.allowsClosure, Bool.and_eq_true] at hd
    simp only [Discipline.allowsStack, List.all_cons, Discipline.allowsFrame, Closure.activation,
      Discipline.allowsCode, Discipline.allowsBlock, Discipline.allowsKind, Discipline.allowsEntry,
      List.all_nil, Bool.and_true, Bool.true_and, Bool.and_eq_true]
    exact ⟨⟨hd.1.1.2, hd.1.1.1⟩, hd.2⟩

theorem turn_evictIdle {source : ContextId} {record : Record} {below : List Frame}
    (hcontrol : s.control = .landed source (.message .eviction))
    (hstack : s.stack = .base (.idle record) :: below)
    (hstacked : Stacked (homeOf s.running) s.stack) :
    s.Turn (s.go s.world (dropFirst (Closure.leftover record.body)
      (.base (.leaving record.lease (.unwound source)) :: below))) := by
  have hall := hstacked
  rw [hstack] at hall
  rcases hall with ⟨hfiber, ⟨body, hbody, hplain⟩, hbelow⟩
  have hbase : Stacked (homeOf s.running)
      (.base (.leaving record.lease (.unwound source)) :: below) :=
    ⟨hfiber, trivial, hbelow⟩
  apply stayLanded hcontrol rfl rfl rfl
  · intro x
    simp only [hstack, stackHoldings_dropFirst, stackHoldings_cons, Frame.holdings,
      FiberStage.holdings, Record.holdings, Ending.holdings, Signal.holdings, List.count_append]
    omega
  · apply hbase.dropFirst
    rw [hbody]
    exact hplain
  · exact Active.dropFirst trivial
  · exact fun honce => Tidy.dropFirst ⟨honce, trivial⟩
  · rw [leaseOf_dropFirst, hstack]
    rfl
  · simp [callsEnded, hcontrol, hstack, openCalls, Frame.isResume]
  · intro d hd
    simp only [hstack, Discipline.allowsStack, List.all_cons, Discipline.allowsFrame,
      Bool.and_eq_true] at hd
    have hentries := Discipline.allowsEntry_leftover hd.1
    cases hleft : Closure.leftover record.body with
    | nil =>
        simp only [dropFirst, Discipline.allowsStack, List.all_cons, Discipline.allowsFrame,
          Bool.true_and]
        exact hd.2
    | cons e es =>
        rw [hleft] at hentries
        simp only [dropFirst, Discipline.allowsStack, List.all_cons, Discipline.allowsFrame,
          Bool.true_and, Bool.and_eq_true] at hentries ⊢
        exact ⟨hentries, hd.2⟩

theorem turn_start {maker : ContextId} {record : Option Record}
    (hcontrol : s.control = .landed maker (.start record))
    (hlands : Lands (homeOf s.running) (.start record) s.stack) : s.Turn (s.start maker record) := by
  rcases hlands with ⟨hfiber, hstack, r, rfl, hformed⟩
  have hmade := guardsMade_landed hcontrol
  have hdropped := guardsDropped_landed hcontrol
  unfold start
  rw [hstack]
  apply Turn.switch .birth
  exact
    { balance := by
        intro x
        simp only [pool, made, hmade, hcontrol, Control.holdings, Signal.holdings, hstack,
          stackHoldings_cons, stackHoldings_nil, Frame.holdings, FiberStage.holdings,
          Option.toList_some, List.flatMap_cons, List.flatMap_nil, List.count_append,
          List.count_cons, List.map_nil, List.count_nil]
        omega
      stacked := ⟨hfiber, hformed, rfl⟩
      once := id
      lease := by simp [lease?, hcontrol, leaseOf, FiberStage.lease?]
      calls := by
        rw [hstack]
        exact List.suffix_refl _
      obeys := by
        intro d hd
        have hbody := hd.2
        simp only [hcontrol, Discipline.allowsControl, Option.toList_some, List.all_cons,
          List.all_nil, Bool.and_true] at hbody
        simp [Discipline.allowsStack, Discipline.allowsFrame, hbody]
      quiet := ⟨gone_landed hcontrol, by simp [callsEnded, hcontrol]⟩
      memory := Nat.le_refl _
      books := by
        rw [booksAfter, hmade, hdropped]
        simp [Books.adjust]
      returns := ⟨.handle, rfl, rfl⟩
      lands := fun k there hneed hthere => Lands.handover hthere (Or.inr hneed) }

/-! ## Summary -/

theorem turn_receive {source : ContextId} {m : Message}
    (hcontrol : s.control = .landed source (.message m))
    (hlands : Lands (homeOf s.running) (.message m) s.stack) (hkind : s.kind = homeOf s.running) :
    s.Turn (s.receive source m) := by
  have hstacked : Stacked (homeOf s.running) s.stack := by
    cases m <;> exact hlands.1
  unfold receive
  split
  · rename_i slot a below hstack
    cases m with
    | handover => exact turn_created hcontrol hstack hstacked
    | farewell | eviction | query => simp [hstack, Lands, needOf] at hlands
  · rename_i query reply purpose a below hstack
    cases m with
    | handover =>
        cases reply with
        | some reply => exact turn_conclude hcontrol hstack hstacked
        | none => simp [hstack, Lands, needOf] at hlands
    | farewell | eviction | query => cases reply <;> simp [hstack, Lands, needOf] at hlands
  · rename_i host onTop target a below hstack
    cases m with
    | handover =>
        apply turn_deliver hcontrol hstack hstacked rfl
        simp [callsEnded, hcontrol, hstack]
    | farewell =>
        apply turn_deliver hcontrol hstack hstacked rfl
        simp [callsEnded, hcontrol, hstack]
    | query => exact Turn.answer hcontrol
    | eviction =>
        cases hs : s.kind with
        | native => exact Turn.halt (.nativeStackUnwound hcontrol hs)
        | fiber => exact turn_evicted hcontrol hstack hstacked (hkind.symm.trans hs)
  · rename_i below hstack
    cases m with
    | farewell =>
        have hall := hstacked
        rw [hstack] at hall
        apply stayLanded hcontrol rfl rfl rfl
        · intro x
          simp [hstack, Frame.holdings, Signal.holdings]
        · exact hall.2
        · exact hall.1.active
        · exact fun honce => .of_inDrop honce hall.1
        · rw [hstack]
          rfl
        · simp [callsEnded, hcontrol, hstack, openCalls, Frame.isResume]
        · intro d hd
          simp_all [Discipline.allowsStack, Discipline.allowsFrame]
    | handover | eviction | query => simp [hstack, Lands, needOf] at hlands
  · rename_i below hstack
    cases m <;> simp [hstack, Lands, needOf] at hlands
  · rename_i record below hstack
    cases m with
    | handover => exact turn_callBody hcontrol hstack hstacked rfl
    | farewell => exact turn_callBody hcontrol hstack hstacked rfl
    | query => exact Turn.answer hcontrol
    | eviction => exact turn_evictIdle hcontrol hstack hstacked
  · rename_i lease below hstack
    cases m <;> simp [hstack, Lands, needOf] at hlands
  · rename_i hother
    exfalso
    have hneed : needOf s.stack ≠ none := by
      cases m with
      | handover =>
          have hall := hlands.2
          split at hall
          · grind
          · rcases hall with h | h <;> simp [h]
      | farewell => rcases hlands.2 with h | h <;> simp [h]
      | eviction | query => simp [hlands.2]
    unfold needOf at hneed
    split at hneed <;> grind

theorem turn_land {source : ContextId} {signal : Signal} (hcontrol : s.control = .landed source signal)
    (hlands : Lands (homeOf s.running) signal s.stack) (hkind : s.kind = homeOf s.running) :
    s.Turn (s.land source signal) := by
  cases signal with
  | message m => exact turn_receive hcontrol hlands hkind
  | onTop => exact Turn.call hcontrol
  | exit => exact Turn.release hcontrol
  | start record => exact turn_start hcontrol hlands

theorem turn_run (hrun : s.control = .run) (hactive : Active s.stack)
    (hstacked : Stacked (homeOf s.running) s.stack) : s.Turn s.run := by
  unfold run
  split
  · rename_i hstack
    exact turn_runCode hrun hstack hstacked
  · rename_i hstack
    apply turn_runCall hrun hstack _ hstacked
    rw [hstack] at hactive ⊢
    exact hactive
  · rename_i hstack
    exact turn_runDiscarding hrun hstack hstacked
  · rename_i hstack
    exact turn_runBase hrun hstack hactive hstacked
  · rename_i hstack
    exact turn_runRoot hrun hstack hactive hstacked
  · rename_i hstack
    rw [hstack] at hactive
    exact False.elim hactive
  · rename_i hstack
    rw [hstack] at hactive
    exact False.elim hactive
  · rename_i hstack
    rw [hstack] at hactive
    exact False.elim hactive

/-- Every step of a state whose running context stands on a proper stack is one of these. -/
theorem turn_step (hstands : s.Stands) (hkind : s.kind = homeOf s.running) : s.Turn s.step := by
  unfold step
  cases hcontrol : s.control with
  | run =>
      simp only [Stands, hcontrol] at hstands
      exact turn_run hcontrol hstands.2 hstands.1
  | landed source signal =>
      simp only [Stands, hcontrol] at hstands
      exact turn_land hcontrol hstands hkind

end State

end Fibers
