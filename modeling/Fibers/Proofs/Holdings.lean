import Fibers.Run

/-!
# What a state holds

A *token* is the right to let a suspended context go on.  Handles are tokens, and so are the
requester that a forced unwind carries along and the sender of a switch that is under way.  Every
place that can hold a token or a guard is listed here, so that both can be counted over a whole
state.

The main statements are laws of conservation: exchanging the handles of slots moves tokens, but
neither makes nor loses one.
-/

namespace Fibers

/-! ## Tokens and guards -/

/-- What a suspended context waits for, which is also the kind of token that it can be reached by. -/
inductive Need where
  /-- To be switched to through a handle. -/
  | handle
  /-- To be told that the fiber it has abandoned is gone. -/
  | request
  /-- To have its probe answered. -/
  | reply
  /-- To have the fiber it is making park for the first time. -/
  | birth
  /-- To have the function that it has sent along called. -/
  | call
  /-- To have its stack given back. -/
  | remains
deriving DecidableEq, Repr

/-- Something that must neither be lost nor doubled. -/
inductive Holding where
  | token (need : Need) (context : ContextId)
  | guard (label : String)
deriving DecidableEq, Repr

/-! ## Where they are -/

def Handle.holdings : Handle -> List Holding
  | empty => []
  | live c => [.token .handle c]

def Entry.holdings : Entry -> List Holding
  | slot _ h => h.holdings
  | guard label _ => [.guard label]

def entryHoldings (es : List Entry) : List Holding := es.flatMap Entry.holdings

def Block.holdings (b : Block) : List Holding := entryHoldings b.entries

def Activation.holdings (a : Activation) : List Holding :=
  a.flow.result.holdings ++ a.blocks.flatMap Block.holdings

def Unwind.holdings : Unwind -> List Holding
  | .panic _ => []
  | .forced requester => [.token .request requester]

def Ending.holdings : Ending -> List Holding
  | returned next => [.token .handle next]
  | unwound requester => [.token .request requester]

def ProbePurpose.holdings : ProbePurpose -> List Holding
  | question _ _ => []
  | check _ onTop => entryHoldings (Closure.leftover onTop)

def Call.holdings : Call -> List Holding
  | create _ | failBuild _ => []
  | probe _ _ purpose => purpose.holdings
  | resume _ onTop _ => entryHoldings (Closure.leftover onTop)
  | refuse refusal _ _ => refusal.handle.holdings
  | store pending _ => pending.flatMap fun entry => entry.2.holdings

def Record.holdings (r : Record) : List Holding := entryHoldings (Closure.leftover r.body)

def FiberStage.holdings : FiberStage -> List Holding
  | idle record => record.holdings
  | leaving _ ending => ending.holdings
  | unborn | busy _ | exited _ => []

def Frame.holdings : Frame -> List Holding
  | code a => a.holdings
  | calling call a => call.holdings ++ a.holdings
  | discarding entries cause => entryHoldings entries ++ cause.toList.flatMap Unwind.holdings
  | base stage => stage.holdings
  | dropping | onTop _ | root _ => []

def stackHoldings (stack : List Frame) : List Holding := stack.flatMap Frame.holdings

def World.holdings (w : World) : List Holding := w.globals.flatMap fun entry => entry.2.holdings

/--
What a switch carries from its sender.  The token of a sender that leaves no handle behind is
dead, so it does not count.
-/
def Signal.holdings (source : ContextId) : Signal -> List Holding
  | message .handover => [.token .handle source]
  | message .farewell => []
  | message .eviction => [.token .request source]
  | message .query => [.token .reply source]
  | onTop => [.token .call source]
  | exit => [.token .remains source]
  | start record => .token .birth source :: record.toList.flatMap Record.holdings

def Control.holdings : Control -> List Holding
  | run => []
  | landed source signal => signal.holdings source

def Scene.holdings (s : Scene) : List Holding := s.world.holdings ++ s.code.holdings

namespace State

/-- What the running context can lay its hands on: its own stack, the globals, and what has come. -/
def pool (s : State) : List Holding :=
  s.world.holdings ++ stackHoldings s.stack ++ s.control.holdings

def parkedHoldings (contexts : List (ContextId × List Frame)) : List Holding :=
  contexts.flatMap fun entry => stackHoldings entry.2

def holdings (s : State) : List Holding := s.pool ++ parkedHoldings s.contexts

end State

/-! ## Suspended contexts -/

/-- What a context that is parked with this stack waits for. -/
def needOf : List Frame -> Option Need
  | .calling (.resume _ none _) _ :: _ => some .handle
  | .calling (.resume _ (some _) _) _ :: _ => some .call
  | .calling (.probe _ none _) _ :: _ => some .reply
  | .calling (.create _) _ :: _ => some .birth
  | .dropping :: _ => some .request
  | .base (.idle _) :: _ => some .handle
  | .base (.exited _) :: _ => some .remains
  | _ => none

/-! What a context waits for tells the topmost frame of its stack. -/

section Needs

variable {stack : List Frame}

theorem needOf_reply (h : needOf stack = some .reply) :
    exists query purpose a below, stack = .calling (.probe query none purpose) a :: below := by
  unfold needOf at h
  split at h <;> first | exact ⟨_, _, _, _, rfl⟩ | cases h

theorem needOf_call (h : needOf stack = some .call) :
    exists host f target a below, stack = .calling (.resume host (some f) target) a :: below := by
  unfold needOf at h
  split at h <;> first | exact ⟨_, _, _, _, _, rfl⟩ | cases h

theorem needOf_remains (h : needOf stack = some .remains) :
    exists lease below, stack = .base (.exited lease) :: below := by
  unfold needOf at h
  split at h <;> first | exact ⟨_, _, rfl⟩ | cases h

theorem needOf_request (h : needOf stack = some .request) :
    exists below, stack = .dropping :: below := by
  unfold needOf at h
  split at h <;> first | exact ⟨_, rfl⟩ | cases h

theorem needOf_handle (h : needOf stack = some .handle) :
    (exists host target a below, stack = .calling (.resume host none target) a :: below) ∨
      exists record below, stack = .base (.idle record) :: below := by
  unfold needOf at h
  split at h
  case h_1 => exact Or.inl ⟨_, _, _, _, rfl⟩
  case h_6 => exact Or.inr ⟨_, _, rfl⟩
  all_goals cases h

end Needs

namespace State

/-- The token by which a context can be reached that is parked with this stack. -/
def awaitedAt (c : ContextId) (stack : List Frame) : List Holding :=
  ((needOf stack).map (Holding.token · c)).toList

/-- The tokens by which the contexts in a list can be reached. -/
def awaitedBy (contexts : List (ContextId × List Frame)) : List Holding :=
  contexts.flatMap fun entry => awaitedAt entry.1 entry.2

/-- The tokens by which the contexts of a state can be reached. -/
def awaited (s : State) : List Holding := awaitedBy s.contexts

end State

/-! ## Counting

A law of conservation is an equation of counts, for every token and guard.
-/

section Counting

variable {x : Holding}

@[simp] theorem entryHoldings_nil : entryHoldings [] = [] := rfl

@[simp] theorem entryHoldings_cons (e : Entry) (es : List Entry) :
    entryHoldings (e :: es) = e.holdings ++ entryHoldings es := rfl

@[simp] theorem entryHoldings_append (es fs : List Entry) :
    entryHoldings (es ++ fs) = entryHoldings es ++ entryHoldings fs :=
  List.flatMap_append

@[simp] theorem stackHoldings_nil : stackHoldings [] = [] := rfl

@[simp] theorem stackHoldings_cons (f : Frame) (stack : List Frame) :
    stackHoldings (f :: stack) = f.holdings ++ stackHoldings stack := rfl

@[simp] theorem entryHoldings_handle (h : Handle) : entryHoldings h.entries = h.holdings := by
  cases h <;> rfl

theorem entryHoldings_pending (pending : List (SlotName × Handle)) :
    entryHoldings (pending.flatMap fun entry => entry.2.entries) =
      pending.flatMap fun entry => entry.2.holdings := by
  induction pending with
  | nil => rfl
  | cons entry rest ih => simp [ih]

@[simp] theorem stackHoldings_dropFirst (es : List Entry) (stack : List Frame) :
    stackHoldings (dropFirst es stack) = entryHoldings es ++ stackHoldings stack := by
  cases es <;> simp [dropFirst, Frame.holdings]

@[simp] theorem result_onward : Flow.onward.result = .empty := rfl

@[simp] theorem result_leavingLoop : Flow.leavingLoop.result = .empty := rfl

@[simp] theorem result_returning (h : Handle) : (Flow.returning h).result = h := rfl

@[simp] theorem holdings_empty : Handle.empty.holdings = [] := rfl

theorem entryHoldings_reverse (es : List Entry) :
    (entryHoldings es.reverse).count x = (entryHoldings es).count x := by
  induction es with
  | nil => rfl
  | cons e rest ih =>
      rw [List.reverse_cons, entryHoldings_append, List.count_append, ih]
      simp only [entryHoldings_cons, entryHoldings_nil, List.count_append, List.append_nil]
      omega

theorem entryHoldings_guards (labels : List String) :
    entryHoldings (labels.map (Entry.guard · [])) = labels.map Holding.guard := by
  induction labels with
  | nil => rfl
  | cons label rest ih => rw [List.map_cons, entryHoldings_cons, ih]; rfl

theorem entryHoldings_slots (taken : List (SlotName × Handle)) :
    entryHoldings (taken.map fun (name, h) => Entry.slot name h) =
      taken.flatMap fun entry => entry.2.holdings := by
  induction taken with
  | nil => rfl
  | cons entry rest ih => rw [List.map_cons, entryHoldings_cons, ih]; rfl

/-! ### Slots -/

theorem exchangeEntry_count {name : SlotName} {h old : Handle} {es es' : List Entry}
    (hx : exchangeEntry name h es = some (old, es')) :
    old.holdings.count x + (entryHoldings es').count x =
      h.holdings.count x + (entryHoldings es).count x := by
  induction es generalizing es' with
  | nil => simp [exchangeEntry] at hx
  | cons e rest ih =>
      cases e with
      | slot n k =>
          by_cases hn : n = name
          · simp only [exchangeEntry, hn, if_true, Option.some.injEq, Prod.mk.injEq] at hx
            rcases hx with ⟨rfl, rfl⟩
            simp only [entryHoldings_cons, Entry.holdings, List.count_append]
            omega
          · simp only [exchangeEntry, hn, if_false, Option.map_eq_some_iff] at hx
            rcases hx with ⟨⟨o, r⟩, hr, heq⟩
            simp only [Prod.mk.injEq] at heq
            rcases heq with ⟨rfl, rfl⟩
            have hrest := ih hr
            simp only [entryHoldings_cons, List.count_append]
            omega
      | guard label onDrop =>
          simp only [exchangeEntry, Option.map_eq_some_iff] at hx
          rcases hx with ⟨⟨o, r⟩, hr, heq⟩
          simp only [Prod.mk.injEq] at heq
          rcases heq with ⟨rfl, rfl⟩
          have hrest := ih hr
          simp only [entryHoldings_cons, List.count_append]
          omega

theorem exchangeBlock_count {name : SlotName} {h old : Handle} {bs bs' : List Block}
    (hx : exchangeBlock name h bs = some (old, bs')) :
    old.holdings.count x + (bs'.flatMap Block.holdings).count x =
      h.holdings.count x + (bs.flatMap Block.holdings).count x := by
  induction bs generalizing bs' with
  | nil => simp [exchangeBlock] at hx
  | cons b outer ih =>
      cases he : exchangeEntry name h b.entries with
      | some found =>
          rcases found with ⟨o, entries⟩
          simp only [exchangeBlock, he, Option.some.injEq, Prod.mk.injEq] at hx
          rcases hx with ⟨rfl, rfl⟩
          have hentries := exchangeEntry_count (x := x) he
          simp only [List.flatMap_cons, List.count_append, Block.holdings]
          omega
      | none =>
          simp only [exchangeBlock, he, Option.map_eq_some_iff] at hx
          rcases hx with ⟨⟨o, r⟩, hr, heq⟩
          simp only [Prod.mk.injEq] at heq
          rcases heq with ⟨rfl, rfl⟩
          have houter := ih hr
          simp only [List.flatMap_cons, List.count_append]
          omega

theorem exchangeShared_count {name : String} {h old : Handle} {gs gs' : List (String × Handle)}
    (hx : exchangeShared name h gs = some (old, gs')) :
    old.holdings.count x + (gs'.flatMap fun entry => entry.2.holdings).count x =
      h.holdings.count x + (gs.flatMap fun entry => entry.2.holdings).count x := by
  induction gs generalizing gs' with
  | nil => simp [exchangeShared] at hx
  | cons g rest ih =>
      rcases g with ⟨n, k⟩
      by_cases hn : n = name
      · simp only [exchangeShared, hn, if_true, Option.some.injEq, Prod.mk.injEq] at hx
        rcases hx with ⟨rfl, rfl⟩
        simp only [List.flatMap_cons, List.count_append]
        omega
      · simp only [exchangeShared, hn, if_false, Option.map_eq_some_iff] at hx
        rcases hx with ⟨⟨o, r⟩, hr, heq⟩
        simp only [Prod.mk.injEq] at heq
        rcases heq with ⟨rfl, rfl⟩
        have hrest := ih hr
        simp only [List.flatMap_cons, List.count_append]
        omega

theorem declareEntry_count {e : Entry} {bs bs' : List Block} (hx : declareEntry e bs = some bs') :
    (bs'.flatMap Block.holdings).count x =
      e.holdings.count x + (bs.flatMap Block.holdings).count x := by
  cases bs with
  | nil => simp [declareEntry] at hx
  | cons b outer =>
      simp only [declareEntry, Option.some.injEq] at hx
      rw [← hx]
      simp only [List.flatMap_cons, Block.holdings, entryHoldings_cons, List.count_append]
      omega

theorem Activation.take_count (a : Activation) (name : SlotName) :
    (a.take name).1.holdings.count x + (a.take name).2.holdings.count x = a.holdings.count x := by
  cases hx : exchangeBlock name .empty a.blocks with
  | none => simp [Activation.take, hx]
  | some found =>
      have hblocks := exchangeBlock_count (x := x) hx
      simp only [Activation.take, hx, Activation.holdings, List.count_append, holdings_empty,
        List.count_nil] at hblocks ⊢
      omega

theorem Activation.put_count (a : Activation) (name : SlotName) (h : Handle) :
    (a.put name h).1.holdings.count x + (a.put name h).2.holdings.count x =
      h.holdings.count x + a.holdings.count x := by
  cases hx : exchangeBlock name h a.blocks with
  | some found =>
      have hblocks := exchangeBlock_count (x := x) hx
      simp only [Activation.put, hx, Activation.holdings, List.count_append] at hblocks ⊢
      omega
  | none =>
      cases hd : declareEntry (.slot name h) a.blocks with
      | none => simp [Activation.put, hx, hd]
      | some blocks =>
          have hblocks := declareEntry_count (x := x) hd
          simp only [Activation.put, hx, hd, Activation.holdings, Entry.holdings, holdings_empty,
            List.count_append, List.count_nil] at hblocks ⊢
          omega

theorem World.take_count (w : World) (name : String) :
    (w.take name).1.holdings.count x + (w.take name).2.holdings.count x = w.holdings.count x := by
  cases hx : exchangeShared name .empty w.globals with
  | none => simp [World.take, hx]
  | some found =>
      have hglobals := exchangeShared_count (x := x) hx
      simp only [World.take, hx, World.holdings, holdings_empty, List.count_nil] at hglobals ⊢
      omega

theorem World.put_count (w : World) (name : String) (h : Handle) :
    (w.put name h).1.holdings.count x + (w.put name h).2.holdings.count x =
      h.holdings.count x + w.holdings.count x := by
  cases hx : exchangeShared name h w.globals with
  | some found =>
      have hglobals := exchangeShared_count (x := x) hx
      simp only [World.put, hx, World.holdings] at hglobals ⊢
      omega
  | none =>
      simp [World.put, hx, World.holdings]

/-! ### Scenes -/

theorem Scene.take_count (s : Scene) (slot : SlotName) :
    (s.take slot).1.holdings.count x + (s.take slot).2.holdings.count x = s.holdings.count x := by
  cases slot with
  | own name =>
      have hcode := s.code.take_count (x := x) (.own name)
      simp only [Scene.take, Scene.holdings, List.count_append] at hcode ⊢
      omega
  | shared name =>
      have hworld := s.world.take_count (x := x) name
      simp only [Scene.take, Scene.holdings, List.count_append] at hworld ⊢
      omega

theorem Scene.put_count (s : Scene) (slot : SlotName) (h : Handle) :
    (s.put slot h).1.holdings.count x + (s.put slot h).2.holdings.count x =
      h.holdings.count x + s.holdings.count x := by
  cases slot with
  | own name =>
      have hcode := s.code.put_count (x := x) (.own name) h
      simp only [Scene.put, Scene.holdings, List.count_append] at hcode ⊢
      omega
  | shared name =>
      have hworld := s.world.put_count (x := x) name h
      simp only [Scene.put, Scene.holdings, List.count_append] at hworld ⊢
      omega

end Counting

end Fibers
