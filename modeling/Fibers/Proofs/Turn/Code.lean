import Fibers.Proofs.Turn.Basic

/-!
# Steps of running code

While an operation is done, what the running context holds is spread over its slots, the globals,
and whatever the operation has in hand.  A *staged* operation says that nothing of it is missing.
Each way for an operation to go on takes what is in hand to some place of the next state.
-/

namespace Fibers

/-! ## Slots and the rest of a scene -/

namespace Activation

variable {a : Activation}

@[simp] theorem flow_take (name : SlotName) : (a.take name).2.flow = a.flow := by
  cases hx : exchangeBlock name .empty a.blocks <;> simp [take, hx]

@[simp] theorem flow_put (name : SlotName) (h : Handle) : (a.put name h).2.flow = a.flow := by
  cases hx : exchangeBlock name h a.blocks with
  | some found => simp [put, hx]
  | none => cases hd : declareEntry (.slot name h) a.blocks <;> simp [put, hx, hd]

@[simp] theorem allowsCode_take {d : Discipline} (name : SlotName) :
    d.allowsCode (a.take name).2 = d.allowsCode a := by
  cases hx : exchangeBlock name .empty a.blocks with
  | none => simp [take, hx]
  | some found => simp [take, hx, Discipline.allowsCode, Discipline.allowsBlock_exchange hx]

@[simp] theorem allowsCode_put {d : Discipline} (name : SlotName) (h : Handle) :
    d.allowsCode (a.put name h).2 = d.allowsCode a := by
  cases hx : exchangeBlock name h a.blocks with
  | some found => simp [put, hx, Discipline.allowsCode, Discipline.allowsBlock_exchange hx]
  | none =>
      cases hb : a.blocks with
      | nil => simp [put, hb, declareEntry, exchangeBlock]
      | cons b outer =>
          rw [hb] at hx
          simp [put, hx, hb, declareEntry, Discipline.allowsCode, Discipline.allowsBlock,
            Discipline.allowsEntry]

end Activation

namespace Scene

variable {s : Scene}

@[simp] theorem books_take (slot : SlotName) : (s.take slot).2.world.books = s.world.books := by
  cases slot <;> simp [take]

@[simp] theorem books_put (slot : SlotName) (h : Handle) :
    (s.put slot h).2.world.books = s.world.books := by
  cases slot <;> simp [put]

@[simp] theorem memory_take (slot : SlotName) : (s.take slot).2.world.memory = s.world.memory := by
  cases slot <;> simp [take]

@[simp] theorem memory_put (slot : SlotName) (h : Handle) :
    (s.put slot h).2.world.memory = s.world.memory := by
  cases slot <;> simp [put]

@[simp] theorem flow_take (slot : SlotName) : (s.take slot).2.code.flow = s.code.flow := by
  cases slot <;> simp [take]

@[simp] theorem flow_put (slot : SlotName) (h : Handle) :
    (s.put slot h).2.code.flow = s.code.flow := by
  cases slot <;> simp [put]

@[simp] theorem allowsCode_take {d : Discipline} (slot : SlotName) :
    d.allowsCode (s.take slot).2.code = d.allowsCode s.code := by
  cases slot <;> simp [take]

@[simp] theorem allowsCode_put {d : Discipline} (slot : SlotName) (h : Handle) :
    d.allowsCode (s.put slot h).2.code = d.allowsCode s.code := by
  cases slot <;> simp [put]

end Scene

theorem Scene.capture_plain (s : Scene) (label : String) (argument : SlotName)
    (captures : List String) (moves : List SlotName) (ops : List Op) :
    (s.capture label argument captures moves ops).1.captured.all Entry.isPlain = true := by
  simp [Scene.capture, Entry.isPlain]

theorem Scene.capture_allowed {d : Discipline} {ops : List Op} (s : Scene) (label : String)
    (argument : SlotName) (captures : List String) (moves : List SlotName)
    (hops : d.allowsAll ops = true) :
    d.allowsClosure (s.capture label argument captures moves ops).1 = true := by
  simp [Scene.capture, Discipline.allowsClosure, Discipline.allowsEntry, Discipline.allowsAll, hops]

/-! ## Operations in hand -/

namespace State

/--
The running context has its code in a scene above some frames, and besides some holdings in hand;
and it has made some guards.
-/
structure Staged (s : State) (scene : Scene) (below : List Frame) (hand : List Holding)
    (made : List String) : Prop where
  carries : CarriesCode below
  stacked : Stacked (homeOf s.running) below
  once : s.world.NamesOnce -> scene.world.NamesOnce
  lease : leaseOf below = s.lease?
  calls : openCalls s.stack = s.callsEnded ++ openCalls below
  memory : s.world.memory.next ≤ scene.world.memory.next
  books : scene.world.books = Books.adjust s.world.books made []
  balance : forall x,
    scene.holdings.count x + hand.count x + (stackHoldings below).count x =
      s.pool.count x + (made.map Holding.guard).count x
  obeys : forall d, s.ObeysNow d ->
    d.allowsCode scene.code = true ∧ d.allowsStack below = true
  quiet : s.guardsDropped = [] ∧ s.swallows = []
  onward : scene.code.flow = .onward

namespace Staged

variable {s : State} {scene : Scene} {below : List Frame} {hand : List Holding}
  {made : List String}

/-- What is on top of the stack, and what has come, is taken apart into code and a hand. -/
theorem ofTop {f : Frame} {a : Activation} (hstack : s.stack = f :: below)
    (hcarries : CarriesCode below) (hstacked : Stacked (homeOf s.running) below)
    (honward : a.flow = .onward)
    (hholdings : forall x, a.holdings.count x + hand.count x =
      f.holdings.count x + s.control.holdings.count x)
    (hlease : leaseOf below = s.lease?) (hcalls : openCalls s.stack = s.callsEnded ++ openCalls below)
    (hdropped : s.guardsDropped = []) (hswallows : s.swallows = [])
    (hobeys : forall d : Discipline, d.allowsFrame f = true -> d.allowsCode a = true) :
    s.Staged ⟨s.world, a⟩ below hand [] where
  carries := hcarries
  stacked := hstacked
  once := id
  lease := hlease
  calls := hcalls
  memory := Nat.le_refl _
  books := by simp [Books.adjust]
  balance := by
    intro x
    have hall := hholdings x
    simp only [pool, Scene.holdings, hstack, stackHoldings_cons, List.count_append, List.map_nil,
      List.count_nil]
    omega
  obeys := by
    intro d hd
    have hall := hd.1
    simp only [hstack, Discipline.allowsStack, List.all_cons, Bool.and_eq_true] at hall
    exact ⟨hobeys d hall.1, hall.2⟩
  quiet := ⟨hdropped, hswallows⟩
  onward := honward

theorem take (h : s.Staged scene below hand made) (slot : SlotName) :
    s.Staged (scene.take slot).2 below ((scene.take slot).1.holdings ++ hand) made where
  carries := h.carries
  stacked := h.stacked
  once := fun honce => (h.once honce).takeSlot slot
  lease := h.lease
  calls := h.calls
  memory := by simpa using h.memory
  books := by simpa using h.books
  balance := by
    intro x
    have hslot := scene.take_count (x := x) slot
    have hall := h.balance x
    simp only [List.count_append]
    omega
  obeys := by simpa using h.obeys
  quiet := h.quiet
  onward := by simpa using h.onward

theorem put {k : Handle} (h : s.Staged scene below (k.holdings ++ hand) made) (slot : SlotName) :
    s.Staged (scene.put slot k).2 below ((scene.put slot k).1.holdings ++ hand) made where
  carries := h.carries
  stacked := h.stacked
  once := fun honce => (h.once honce).putSlot slot k
  lease := h.lease
  calls := h.calls
  memory := by simpa using h.memory
  books := by simpa using h.books
  balance := by
    intro x
    have hslot := scene.put_count (x := x) slot k
    have hall := h.balance x
    simp only [List.count_append] at hall ⊢
    omega
  obeys := by simpa using h.obeys
  quiet := h.quiet
  onward := by simpa using h.onward

theorem look (h : s.Staged scene below hand made) (slot : SlotName) :
    s.Staged (scene.look slot).2 below hand made := by
  have hput := (h.take slot).put slot
  rw [Scene.put_take] at hput
  exact hput

theorem takeAll (h : s.Staged scene below hand made) (slots : List SlotName) :
    s.Staged (scene.takeAll slots).2 below
      (((scene.takeAll slots).1.flatMap fun entry => entry.2.holdings) ++ hand) made := by
  induction slots generalizing scene hand with
  | nil => exact h
  | cons slot rest ih =>
      have hrest := ih (h.take slot)
      refine { hrest with balance := ?_ }
      intro x
      have hall := hrest.balance x
      simp only [Scene.takeAll, List.flatMap_cons, List.count_append] at hall ⊢
      omega

/-- What the operation does to the world besides leaves holdings and books alone. -/
theorem world {w : World} (h : s.Staged scene below hand made)
    (hglobals : w.globals = scene.world.globals) (hmemory : scene.world.memory.next ≤ w.memory.next)
    (hbooks : w.books = scene.world.books) :
    s.Staged { scene with world := w } below hand made where
  carries := h.carries
  stacked := h.stacked
  once := fun honce => (h.once honce).of_globals hglobals
  lease := h.lease
  calls := h.calls
  memory := Nat.le_trans h.memory hmemory
  books := by rw [hbooks, h.books]
  balance := by simpa [Scene.holdings, World.holdings, hglobals] using h.balance
  obeys := h.obeys
  quiet := h.quiet
  onward := h.onward

theorem askForStack (h : s.Staged scene below hand made) (name owner : Option String)
    (k : StackKind) :
    s.Staged { scene with world := scene.world.askForStack name owner k } below hand made := by
  cases owner with
  | none => exact h.world rfl (Nat.le_refl _) rfl
  | some label => exact h.world rfl (Nat.le_refl _) rfl

theorem returnStack {memory : Memory} (h : s.Staged scene below hand made)
    (owner : Option String) (k : StackKind) (hmemory : scene.world.memory.next ≤ memory.next) :
    s.Staged { scene with world := (scene.world.lendStack memory owner).returnStack owner k }
      below hand made := by
  cases owner with
  | none =>
      have hbooks : ((scene.world.lendStack memory none).returnStack none k).books =
          scene.world.books := by
        simp [World.returnStack, World.lendStack, World.books]
      exact h.world rfl hmemory hbooks
  | some label =>
      have hbooks : ((scene.world.lendStack memory (some label)).returnStack (some label) k).books =
          scene.world.books := by
        simp [World.returnStack, World.lendStack, World.books, World.report, List.filterMap_cons,
          LogEntry.guard?]
      exact h.world rfl hmemory hbooks

theorem note (h : s.Staged scene below hand made) (n : Note) :
    s.Staged (scene.note n) below hand made :=
  h.world rfl (Nat.le_refl _) rfl

theorem setCell (h : s.Staged scene below hand made) (name : String) (value : UInt64) :
    s.Staged { scene with world := scene.world.setCell name value } below hand made :=
  h.world rfl (Nat.le_refl _) rfl

/-- The running code may be changed as long as it stays disciplined and holds what it held. -/
theorem code {a : Activation} (h : s.Staged scene below hand made) (hflow : a.flow = .onward)
    (hholdings : a.blocks.flatMap Block.holdings = scene.code.blocks.flatMap Block.holdings)
    (hobeys : forall d, s.ObeysNow d -> d.allowsCode scene.code = true -> d.allowsCode a = true) :
    s.Staged { scene with code := a } below hand made where
  carries := h.carries
  stacked := h.stacked
  once := h.once
  lease := h.lease
  calls := h.calls
  memory := h.memory
  books := h.books
  balance := by
    intro x
    have hall := h.balance x
    simpa [Scene.holdings, Activation.holdings, hholdings, hflow, h.onward] using hall
  obeys := fun d hd => ⟨hobeys d hd (h.obeys d hd).1, (h.obeys d hd).2⟩
  quiet := h.quiet
  onward := hflow

theorem make (h : s.Staged scene below hand []) (labels : List String) :
    s.Staged { scene with world :=
        { scene.world with liveGuards := scene.world.liveGuards + labels.length } }
      below (labels.map Holding.guard ++ hand) labels where
  carries := h.carries
  stacked := h.stacked
  once := h.once
  lease := h.lease
  calls := h.calls
  memory := h.memory
  books := by
    have hbooks := h.books
    simp only [Books.adjust, World.books, Books.mk.injEq, List.length_nil] at hbooks ⊢
    simp [hbooks]
  balance := by
    intro x
    have hall := h.balance x
    simp only [Scene.holdings, World.holdings, List.count_append, List.map_nil,
      List.count_nil] at hall ⊢
    omega
  obeys := h.obeys
  quiet := h.quiet
  onward := h.onward

theorem capture (h : s.Staged scene below [] []) (label : String) (argument : SlotName)
    (captures : List String) (moves : List SlotName) (ops : List Op) :
    s.Staged (scene.capture label argument captures moves ops).2 below
      (entryHoldings (scene.capture label argument captures moves ops).1.captured) captures := by
  have hmoves := (h.make captures).takeAll moves
  refine { hmoves with balance := ?_ }
  intro x
  have hall := hmoves.balance x
  simp only [Scene.capture, entryHoldings_reverse, entryHoldings_append, entryHoldings_guards,
    entryHoldings_slots, List.count_append, List.append_nil] at hall ⊢
  omega

/-! ## Ways to go on -/

/-- The running context goes on with a stack that holds what its code and its hand held. -/
theorem stay {stack : List Frame} (h : s.Staged scene below hand s.guardsMade)
    (hholdings : forall x, (stackHoldings stack).count x =
      scene.code.holdings.count x + hand.count x + (stackHoldings below).count x)
    (hstacked : Stacked (homeOf s.running) stack) (hactive : Active stack)
    (htidy : scene.world.NamesOnce -> Tidy scene.world stack)
    (hlease : leaseOf stack = leaseOf below) (hcalls : openCalls stack = openCalls below)
    (hobeys : forall d, s.ObeysNow d -> d.allowsCode scene.code = true ->
      d.allowsStack below = true -> d.allowsStack stack = true) :
    s.Turn (s.go scene.world stack) := by
  apply Turn.stay
  exact
    { running := rfl
      contexts := rfl
      memory := h.memory
      books := by rw [booksAfter, h.quiet.1]; exact h.books
      balance := by
        intro x
        have hall := h.balance x
        have hstack := hholdings x
        simp only [pool, gone, made, h.quiet.1, h.quiet.2, Scene.holdings, Control.holdings,
          List.count_append, List.map_nil, List.count_nil] at hall ⊢
        omega
      stands := ⟨hstacked, hactive⟩
      tidy := fun htidy' => htidy (h.once htidy'.1)
      lease := by rw [<- h.lease]; exact hlease
      calls := by rw [h.calls, hcalls]
      obeys := fun d hd => ⟨hobeys d hd (h.obeys d hd).1 (h.obeys d hd).2, rfl⟩ }

theorem proceed (h : s.Staged scene below [] s.guardsMade) :
    s.Turn (s.proceed scene below) := by
  apply h.stay
  · intro x
    simp [Frame.holdings]
  · exact ⟨h.carries, h.stacked⟩
  · trivial
  · exact fun honce => ⟨honce, trivial⟩
  · rfl
  · rfl
  · intro d hd hcode hbelow
    simp_all [Discipline.allowsStack, Discipline.allowsFrame]

theorem store {pending : List (SlotName × Handle)} (n : Option Note)
    (h : s.Staged scene below (pending.flatMap fun entry => entry.2.holdings) s.guardsMade) :
    s.Turn (s.store scene below pending n) := by
  apply h.stay
  · intro x
    simp only [stackHoldings_cons, Frame.holdings, Call.holdings, List.count_append]
    omega
  · exact ⟨trivial, h.onward, h.carries, h.stacked⟩
  · trivial
  · exact fun honce => ⟨honce, trivial⟩
  · rfl
  · rfl
  · intro d hd hcode hbelow
    simp_all [Discipline.allowsStack, Discipline.allowsFrame, Discipline.allowsCall]

/-- Some entries are dropped above a frame in which the code waits, or above the code itself. -/
theorem dropAbove {entries : List Entry} {f : Frame} (h : s.Staged scene below hand s.guardsMade)
    (hstacked : Stacked (homeOf s.running) (f :: below)) (hin : InCode (f :: below))
    (hholdings : forall x, (entryHoldings entries).count x + f.holdings.count x =
      scene.code.holdings.count x + hand.count x)
    (hlease : leaseOf (f :: below) = leaseOf below) (hresume : f.isResume = false)
    (hentries : forall d, s.ObeysNow d -> entries.all d.allowsEntry = true)
    (hobeys : forall d : Discipline, d.allowsCode scene.code = true -> d.allowsFrame f = true) :
    s.Turn (s.go scene.world (dropFirst entries (f :: below))) := by
  apply h.stay
  · intro x
    have hall := hholdings x
    simp only [stackHoldings_dropFirst, stackHoldings_cons, List.count_append]
    omega
  · exact hstacked.dropFirst hin.carriesDrop
  · exact hin.active.dropFirst
  · exact fun honce => (Tidy.of_inCode honce hin).dropFirst
  · rw [leaseOf_dropFirst, hlease]
  · simp [openCalls, hresume]
  · intro d hd hcode hbelow
    have hall := hentries d hd
    have hframe := hobeys d hcode
    cases entries <;> simp_all [dropFirst, Discipline.allowsStack, Discipline.allowsFrame]

theorem drop {entries : List Entry}
    (h : s.Staged scene below (entryHoldings entries) s.guardsMade)
    (hentries : forall d, s.ObeysNow d -> entries.all d.allowsEntry = true) :
    s.Turn (s.go scene.world (dropFirst entries (.code scene.code :: below))) := by
  have hstacked : Stacked (homeOf s.running) (.code scene.code :: below) :=
    ⟨h.carries, h.stacked⟩
  apply h.dropAbove hstacked trivial _ rfl rfl hentries
  · exact fun _ hcode => hcode
  · exact fun x => Nat.add_comm _ _

theorem panic {payload : Payload} {captured : List Entry}
    (h : s.Staged scene below (entryHoldings captured) s.guardsMade)
    (hentries : forall d, s.ObeysNow d -> captured.all d.allowsEntry = true) :
    s.Turn (s.panic scene below payload captured) := by
  apply h.stay
  · intro x
    simp only [stackHoldings_cons, Frame.holdings, Unwind.holdings, Option.toList_some,
      List.flatMap_cons, List.flatMap_nil, List.count_append, List.append_nil]
    omega
  · exact ⟨trivial, Or.inl trivial, h.carries, h.stacked⟩
  · trivial
  · exact fun honce => ⟨honce, trivial⟩
  · rfl
  · rfl
  · intro d hd hcode hbelow
    have hall := hentries d hd
    simp_all [Discipline.allowsStack, Discipline.allowsFrame]

theorem failBuild {body : Closure} (cause : BuildError)
    (h : s.Staged scene below (entryHoldings body.captured) s.guardsMade)
    (hentries : forall d, s.ObeysNow d -> body.captured.all d.allowsEntry = true) :
    s.Turn (s.failBuild scene below body cause) := by
  have hstacked : Stacked (homeOf s.running) (.calling (.failBuild cause) scene.code :: below) :=
    ⟨trivial, h.onward, h.carries, h.stacked⟩
  apply h.dropAbove hstacked trivial _ rfl rfl hentries
  · intro d hcode
    simpa [Discipline.allowsFrame, Discipline.allowsCall] using hcode
  · exact fun x => Nat.add_comm _ _

/-! ## Switches -/

theorem park (call : Call) {w : World} {released : List Holding}
    (h : s.Staged scene below hand s.guardsMade) (hended : s.callsEnded = [])
    (hglobals : w.globals = scene.world.globals) (hhand : hand = released ++ call.holdings)
    (hformed : call.Formed)
    (hobeys : forall d, s.ObeysNow d -> d.allowsCall call = true) :
    s.Parks w (.calling call scene.code :: below) released where
  balance := by
    intro x
    have hall := h.balance x
    simp only [hhand, Scene.holdings, World.holdings, hglobals, made, stackHoldings_cons,
      Frame.holdings, List.count_append] at hall ⊢
    omega
  stacked := ⟨hformed, h.onward, h.carries, h.stacked⟩
  once := fun honce => (h.once honce).of_globals hglobals
  lease := h.lease
  calls := by
    rw [h.calls, hended, List.nil_append]
    cases call with
    | resume host onTop target => exact List.suffix_cons _ _
    | _ => exact List.suffix_refl _
  obeys := by
    intro d hd
    have hcode := h.obeys d hd
    have hcall := hobeys d hd
    simp_all [Discipline.allowsStack, Discipline.allowsFrame]
  quiet := ⟨by simp [gone, h.quiet], hended⟩

theorem booksAfter (h : s.Staged scene below hand s.guardsMade) :
    scene.world.books = s.booksAfter := by
  rw [State.booksAfter, h.quiet.1]
  exact h.books

theorem depart {target : ContextId} {onTop : Option Closure} (switch : SwitchSpec)
    (h : s.Staged scene below (.token .handle target :: entryHoldings (Closure.leftover onTop))
      s.guardsMade)
    (hended : s.callsEnded = [])
    (hobeys : forall d, s.ObeysNow d -> onTop.toList.all d.allowsClosure = true) :
    s.Turn (s.depart scene below target switch onTop) := by
  cases onTop with
  | none =>
      apply Turn.switch .handle
      exact
        { h.park (.resume _ none switch.target) hended rfl rfl trivial hobeys with
          memory := h.memory
          books := h.booksAfter
          returns := ⟨.handle, rfl, rfl⟩
          lands := fun k there hneed hstacked => Lands.handover hstacked (Or.inl hneed) }
  | some f =>
      apply Turn.switch .handle
      exact
        { h.park (.resume _ (some f) switch.target) hended rfl rfl trivial hobeys with
          memory := h.memory
          books := h.booksAfter
          returns := ⟨.call, rfl, rfl⟩
          lands := fun k there hneed hstacked => ⟨hstacked, hneed⟩ }

theorem probe {target : ContextId} {query : Query} {purpose : ProbePurpose}
    (h : s.Staged scene below (.token .handle target :: purpose.holdings) s.guardsMade)
    (hended : s.callsEnded = []) (hquery : purpose.query = query)
    (hobeys : forall d, s.ObeysNow d -> d.allowsCall (.probe query none purpose) = true) :
    s.Turn (s.probe scene below target query purpose) := by
  apply Turn.switch .handle
  exact
    { h.park (.probe query none purpose) hended rfl rfl ⟨hquery, by simp⟩ hobeys with
      memory := h.memory
      books := h.booksAfter
      returns := ⟨.reply, rfl, rfl⟩
      lands := fun k there hneed hstacked => ⟨hstacked, hneed⟩ }

theorem resume {onTop : Option Closure} (switch : SwitchSpec)
    (h : s.Staged scene below (entryHoldings (Closure.leftover onTop)) s.guardsMade)
    (hended : s.callsEnded = [])
    (hobeys : forall d, s.ObeysNow d -> onTop.toList.all d.allowsClosure = true) :
    s.Turn (s.resume scene below switch onTop) := by
  have hleftover : forall d, s.ObeysNow d ->
      (Closure.leftover onTop).all d.allowsEntry = true :=
    fun d hd => Discipline.allowsEntry_leftover (hobeys d hd)
  have htaken := h.take switch.slot
  unfold State.resume
  rcases hslot : scene.take switch.slot with ⟨k, rest⟩
  rw [hslot] at htaken
  cases k with
  | empty =>
      cases switch.checked with
      | false => exact htaken.panic hleftover
      | true => exact htaken.panic hleftover
  | live target =>
      cases switch.checked with
      | false => exact htaken.depart switch hended hobeys
      | true => exact htaken.probe hended rfl hobeys

theorem ask (question : Question) (slot : SlotName) (h : s.Staged scene below [] s.guardsMade)
    (hended : s.callsEnded = []) : s.Turn (s.ask scene below question slot) := by
  have htaken := h.take slot
  unfold State.ask
  rcases hslot : scene.take slot with ⟨k, rest⟩
  rw [hslot] at htaken
  cases k with
  | empty => exact htaken.panic fun _ _ => rfl
  | live target => exact htaken.probe hended rfl fun _ _ => rfl

/-! ## New fibers -/

theorem launch {body : Closure} {memory : Memory} {stack : Region} {size : Nat}
    {placement : Placement} (spec : FiberSpec)
    (h : s.Staged scene below (entryHoldings body.captured) s.guardsMade)
    (hended : s.callsEnded = []) (hplain : body.captured.all Entry.isPlain = true)
    (hobeys : forall d, s.ObeysNow d -> d.allowsClosure body = true)
    (hhands : scene.world.memory.Hands scene.world.registry.ranges stack memory)
    (hplaced : Placement.onStack stack size = .ok placement) (owner : Option String) :
    s.Turn (s.launch { scene with world := scene.world.lendStack memory owner } below spec.slot
      scene.world.memory.next ⟨⟨spec.name, stack, owner⟩, some body⟩ placement.usable) := by
  have hbooks := h.booksAfter
  simp only [World.books, State.booksAfter, Books.adjust, h.quiet.1, Books.mk.injEq,
    List.length_nil, List.nil_append] at hbooks
  rcases hbooks with ⟨hregistry, haddress, hguards, hlent, hdropped⟩
  apply Turn.launch
  exact
    { h.park (.create spec.slot) hended rfl (List.append_nil _).symm trivial
        fun _ _ => rfl with
      memory := ⟨h.memory, Nat.lt_of_lt_of_eq (Nat.lt_succ_self _) hhands.next.symm⟩
      page := hhands.page
      apart := fun r hr => hhands.apart r (by rwa [hregistry])
      placed := by
        simp only [World.trace, World.report, World.settle, if_true]
        exact Placement.contains_onStack hplaced
      registry := congrArg (Registry.insert · stack) hregistry
      address := fun c hc => (if_neg hc).trans (congrFun haddress c)
      guards := hguards.trans (Int.sub_zero _)
      lent := by
        rw [<- hlent]
        cases owner <;> rfl
      dropped := hdropped
      waits := rfl
      formed := ⟨body, rfl, hplain⟩
      obeysBody := fun d hd => by simpa using hobeys d hd }

theorem create {body : Closure} (spec : FiberSpec)
    (h : s.Staged scene below (entryHoldings body.captured) s.guardsMade)
    (hended : s.callsEnded = []) (hplain : body.captured.all Entry.isPlain = true)
    (hobeys : forall d, s.ObeysNow d -> d.allowsClosure body = true) :
    s.Turn (s.create scene below spec body) := by
  have hentries : forall d, s.ObeysNow d -> body.captured.all d.allowsEntry = true := by
    intro d hd
    have hbody := hobeys d hd
    simp only [Discipline.allowsClosure, Bool.and_eq_true] at hbody
    exact hbody.1
  have hasked := h.askForStack spec.name spec.allocator.label? s.kind
  unfold State.create
  cases hsupply : spec.allocator.supply
      (scene.world.askForStack spec.name spec.allocator.label? s.kind).memory
      (scene.world.askForStack spec.name spec.allocator.label? s.kind).registry.ranges with
  | error cause =>
      simp only [hsupply]
      exact hasked.failBuild _ hentries
  | ok supplied =>
      rcases supplied with ⟨stack, memory⟩
      have hhands := Allocator.supply_ok hsupply
      simp only [hsupply, State.place]
      cases hplaced : Placement.onStack stack recordSize with
      | ok placement => exact hasked.launch spec hended hplain hobeys hhands hplaced _
      | error cause =>
          have hgrown := Nat.le_of_lt (Nat.lt_of_lt_of_eq (Nat.lt_succ_self _) hhands.next.symm)
          exact (hasked.returnStack _ _ hgrown).failBuild _ hentries

/-! ## All operations -/

theorem leave {f : Flow} (h : s.Staged scene below f.result.holdings s.guardsMade) :
    s.Turn (s.proceed (scene.flow f) below) := by
  apply h.stay
  · intro x
    simp only [Scene.flow, stackHoldings_cons, Frame.holdings, Activation.holdings, h.onward,
      Flow.result, holdings_empty, List.count_append, List.nil_append]
    omega
  · exact ⟨h.carries, h.stacked⟩
  · trivial
  · exact fun honce => ⟨honce, trivial⟩
  · rfl
  · rfl
  · intro d hd hcode hbelow
    have hflow : d.allowsCode (scene.flow f).code = d.allowsCode scene.code := rfl
    simp_all [Discipline.allowsStack, Discipline.allowsFrame]

theorem enter {kind : BlockKind} {ops : List Op} (h : s.Staged scene below hand made)
    (hobeys : forall d, s.ObeysNow d -> d.allowsKind kind = true ∧ d.allowsAll ops = true) :
    s.Staged (scene.enter kind ops) below hand made := by
  apply h.code
  · exact h.onward
  · rfl
  · intro d hd hcode
    have hblock := hobeys d hd
    simp only [Discipline.allowsCode, List.all_cons, Discipline.allowsBlock, hblock.1, hblock.2]
    exact hcode

theorem prepend {ops : List Op} (h : s.Staged scene below hand made)
    (hobeys : forall d, s.ObeysNow d -> d.allowsAll ops = true) :
    s.Staged (scene.prepend ops) below hand made := by
  unfold Scene.prepend
  split
  · exact h
  · rename_i b outer hblocks
    apply h.code
    · exact h.onward
    · rw [hblocks]
      rfl
    · intro d hd hcode
      have hops := hobeys d hd
      simp only [Discipline.allowsCode, hblocks, List.all_cons, Discipline.allowsBlock,
        Discipline.allowsAll_append, hops, Bool.true_and] at hcode ⊢
      exact hcode

theorem declare {e : Entry} (h : s.Staged scene below e.holdings made)
    (hblocks : scene.code.blocks ≠ [])
    (hobeys : forall d, s.ObeysNow d -> d.allowsEntry e = true) :
    s.Staged (scene.declare e) below [] made := by
  cases hb : scene.code.blocks with
  | nil => exact absurd hb hblocks
  | cons b outer =>
      exact
        { h with
          balance := by
            intro x
            have hall := h.balance x
            simp only [Scene.declare, Scene.holdings, Activation.holdings, hb, declareEntry,
              Option.getD_some, List.flatMap_cons, Block.holdings, entryHoldings_cons,
              List.count_append, List.count_nil] at hall ⊢
            omega
          obeys := by
            intro d hd
            have hentry := hobeys d hd
            have hcode := h.obeys d hd
            simp only [Scene.declare, hb, declareEntry, Option.getD_some, Discipline.allowsCode,
              List.all_cons, Discipline.allowsBlock, hentry, Bool.true_and] at hcode ⊢
            exact hcode
          onward := h.onward }

/-- Operations that make no guards are staged as the run of the code is. -/
theorem makesNone (h : s.Staged scene below hand []) (hmade : s.guardsMade = []) :
    s.Staged scene below hand s.guardsMade := by
  rw [hmade]
  exact h

theorem compare (a b : SlotName) (h : s.Staged scene below [] s.guardsMade) :
    s.Turn (s.execute scene below (.compare a b)) := by
  have hfirst := h.take a
  unfold State.execute
  by_cases hab : a = b
  · simp only [hab, if_true]
    apply Staged.store
    simpa [hab] using hfirst
  · simp only [hab, if_false]
    have hsecond := hfirst.take b
    apply Staged.store
    simpa using hsecond

theorem execute {op : Op} (h : s.Staged scene below [] []) (hop : s.operation? = some op)
    (hblocks : scene.code.blocks ≠ []) (hended : s.callsEnded = [])
    (hobeys : forall d, s.ObeysNow d -> d.allows op = true) :
    s.Turn (s.execute scene below op) := by
  cases op with
  | create spec captures moves body =>
      have hmade : s.guardsMade = captures := by simp [guardsMade, hop]
      apply Staged.create
      · rw [hmade]
        exact h.capture spec.label (.own "caller") captures moves body
      · exact hended
      · exact Scene.capture_plain ..
      · exact fun d hd => Scene.capture_allowed _ _ _ _ _ (hobeys d hd)
  | resume switch =>
      have hmade : s.guardsMade = [] := by simp [guardsMade, hop]
      exact Staged.resume switch (h.makesNone hmade) hended fun _ _ => rfl
  | resumeWith switch captures moves onTop =>
      have hmade : s.guardsMade = captures := by simp [guardsMade, hop]
      apply Staged.resume switch _ hended
      · intro d hd
        rw [Option.toList_some, List.all_cons, List.all_nil, Bool.and_true]
        exact Scene.capture_allowed _ _ _ _ _ (hobeys d hd)
      · rw [hmade]
        exact h.capture (scene.code.label ++ "^") (.own "source") captures moves onTop
  | ask question slot =>
      have hmade : s.guardsMade = [] := by simp [guardsMade, hop]
      exact Staged.ask question slot (h.makesNone hmade) hended
  | drop slot =>
      have hmade : s.guardsMade = [] := by simp [guardsMade, hop]
      have htaken := (h.makesNone hmade).take slot
      have hdrop : s.Staged (scene.take slot).2 below
          (entryHoldings (scene.take slot).1.entries) s.guardsMade := by
        simpa using htaken
      exact hdrop.drop fun _ _ => Discipline.allowsEntry_handle _
  | move slot target =>
      have hmade : s.guardsMade = [] := by simp [guardsMade, hop]
      have htaken := (h.makesNone hmade).take slot
      have hmove : s.Staged (scene.take slot).2 below
          ([(target, (scene.take slot).1)].flatMap fun entry => entry.2.holdings) s.guardsMade := by
        simpa using htaken
      exact Staged.store none hmove
  | isEmpty slot | display slot | debug slot =>
      have hmade : s.guardsMade = [] := by simp [guardsMade, hop]
      exact (((h.makesNone hmade).look slot).note _).proceed
  | compare a b =>
      have hmade : s.guardsMade = [] := by simp [guardsMade, hop]
      exact (h.makesNone hmade).compare a b
  | collect slots =>
      have hmade : s.guardsMade = [] := by simp [guardsMade, hop]
      apply Staged.store
      simpa using (h.makesNone hmade).takeAll slots
  | guard label onDrop =>
      have hmade : s.guardsMade = [label] := by simp [guardsMade, hop]
      have hmake := h.make [label]
      apply Staged.proceed
      rw [hmade]
      apply Staged.declare
      · exact hmake
      · exact hblocks
      · exact hobeys
  | scope ops | attempt swallow ops =>
      have hmade : s.guardsMade = [] := by simp [guardsMade, hop]
      apply Staged.proceed
      apply (h.makesNone hmade).enter
      intro d hd
      have hallows := hobeys d hd
      simp_all [Discipline.allows, Discipline.allowsKind]
  | rounds count ops | whileLive slot limit ops =>
      have hmade : s.guardsMade = [] := by simp [guardsMade, hop]
      apply Staged.proceed
      apply (h.makesNone hmade).enter
      exact fun d hd => ⟨hobeys d hd, rfl⟩
  | leaveLoop =>
      have hmade : s.guardsMade = [] := by simp [guardsMade, hop]
      exact Staged.leave (h.makesNone hmade)
  | giveBack slot =>
      have hmade : s.guardsMade = [] := by simp [guardsMade, hop]
      have htaken := (h.makesNone hmade).take slot
      have hleave : s.Staged (scene.take slot).2 below
          (Flow.returning (scene.take slot).1).result.holdings s.guardsMade := by
        simpa [Flow.result] using htaken
      exact hleave.leave
  | ifEmpty slot yes no =>
      have hmade : s.guardsMade = [] := by simp [guardsMade, hop]
      apply Staged.proceed
      apply ((h.makesNone hmade).look slot).prepend
      intro d hd
      have hallows := hobeys d hd
      simp only [Discipline.allows, Bool.and_eq_true] at hallows
      exact Discipline.allowsAll_ite hallows.1 hallows.2
  | ifCell cell atLeast yes no =>
      have hmade : s.guardsMade = [] := by simp [guardsMade, hop]
      apply Staged.proceed
      apply (h.makesNone hmade).prepend
      intro d hd
      have hallows := hobeys d hd
      simp only [Discipline.allows, Bool.and_eq_true] at hallows
      exact Discipline.allowsAll_ite hallows.1 hallows.2
  | panic payload =>
      have hmade : s.guardsMade = [] := by simp [guardsMade, hop]
      exact Staged.panic (h.makesNone hmade) fun _ _ => rfl
  | setCell cell source | addCell cell source =>
      have hmade : s.guardsMade = [] := by simp [guardsMade, hop]
      exact ((h.makesNone hmade).setCell _ _).proceed
  | say | whereAmI | printCell | compareHosts | checkAffinity | currentHost | defaultAffinity
  | describeStacks =>
      have hmade : s.guardsMade = [] := by simp [guardsMade, hop]
      exact ((h.makesNone hmade).note _).proceed

end Staged

end State

end Fibers
