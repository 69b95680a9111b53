import Fibers.Proofs.Weight.Code

/-!
# What all steps cost

The machine is gone through case by case: code that comes to the end of a block, calls that go on by
themselves, drops and unwinds, the lowest frames, and the arrival of control from elsewhere.
-/

namespace Fibers

namespace State

variable {s : State} {rounds n : Nat} {a : Activation} {below : List Frame}

/-! ## Code that ends -/

theorem Spares.of_code (rounds : Nat) (hstack : s.stack = .code a :: below) {b : Block}
    {outer : List Block}
    (hblocks : a.blocks = b :: outer) :
    s.Spares rounds ⟨s.world, { a with blocks := outer }⟩ below b.weight where
  spine := by rw [hstack, spine_code]
  hosts := rfl
  weight := by
    simp only [atHand, hstack, stackWeight_cons, Frame.weight, Scene.weight, Activation.weight,
      hblocks, blocksWeight_cons]
    omega

/-- Code can go on with a block that weighs less than the one that it has come to. -/
theorem spends_block (hstack : s.stack = .code a :: below) {b b' : Block} {outer : List Block}
    (hblocks : a.blocks = b :: outer) (hless : b'.weight + 1 ≤ b.weight) :
    s.Spends rounds (s.go s.world (.code { a with blocks := b' :: outer } :: below)) := by
  refine .go (by rw [hstack]; rfl) ?_
  simp only [Affords, atHand, hstack, stackWeight_cons, Frame.weight, Activation.weight, hblocks,
    blocksWeight_cons]
  omega

theorem spends_around (hstack : s.stack = .code a :: below) {b : Block} {outer : List Block}
    (hblocks : a.blocks = b :: outer) {flow : Flow} (hflow : flow.weight ≤ a.flow.weight + 8) :
    s.Spends rounds (s.go s.world (.code { a with blocks := outer, flow := flow } :: below)) := by
  refine .go (by rw [hstack]; rfl) ?_
  simp only [Affords, atHand, hstack, stackWeight_cons, Frame.weight, Activation.weight, hblocks,
    blocksWeight_cons, Block.weight]
  omega

theorem spends_endBlock (hrounds : rounds ≤ 100) (hstack : s.stack = .code a :: below) {b : Block}
    {outer : List Block} (hblocks : a.blocks = b :: outer) :
    s.Spends rounds (s.endBlock a b outer below) := by
  have haround := Spares.of_code rounds hstack hblocks
  unfold State.endBlock
  dsimp only
  split
  · rename_i hflow
    split
    · rename_i left code hkind
      refine spends_block hstack hblocks ?_
      simp only [Block.weight, BlockKind.weight, hkind, Nat.succ_mul, entriesWeight_nil]
      omega
    · rename_i slot left code hkind
      have hround : b.weight =
          left * (2048 + codeWeight code) + codeWeight code + codeWeight b.code +
            entriesWeight b.entries + 2064 := by
        simp only [Block.weight, BlockKind.weight, hkind, Nat.succ_mul]
        omega
      generalize hlook : Scene.look ⟨s.world, { a with blocks := outer }⟩ slot = looked
      rcases looked with ⟨seen, scene⟩
      have hlooked := haround.look hrounds hlook
        (m := left * (2048 + codeWeight code) + codeWeight code + 17) (by omega)
      dsimp only
      split
      · exact hlooked.proceed (by omega)
      · refine Spares.proceed (n := 1) (hlooked.enter ?_) (Nat.le_refl 1)
        simp only [BlockKind.weight]
        omega
    · exact spends_around hstack hblocks (by rw [hflow]; omega)
  · rename_i hflow
    split
    · exact spends_around hstack hblocks (by rw [hflow]; decide)
    · exact spends_around hstack hblocks (by rw [hflow]; omega)
  · rename_i result hflow
    exact spends_around hstack hblocks (by rw [hflow]; omega)

/-- What is dropped when running code is left is paid for by being there. -/
theorem spends_closing {a' : Activation} {e : Entry} {es : List Entry} {cause : Option Unwind}
    (hspine : spine below = spine s.stack)
    (hweight : a'.weight + stackWeight below + entriesWeight (e :: es) ≤
      stackWeight s.stack + s.control.weight) :
    s.Spends rounds (s.go s.world (.discarding (e :: es) cause :: .code a' :: below)) := by
  refine .go hspine ?_
  have hless := dropWeight_le (e :: es)
  simp only [Affords, atHand, stackWeight_cons, Frame.weight, List.length_cons] at hless ⊢
  omega

/-- A result that is dropped is paid for by being there. -/
theorem spends_result {a' : Activation} {h : Handle} {e : Entry} {es : List Entry}
    {cause : Option Unwind} (hspine : spine below = spine s.stack) (hentries : h.entries = e :: es)
    (hweight : a'.weight + stackWeight below + h.weight ≤ stackWeight s.stack + s.control.weight) :
    s.Spends rounds (s.go s.world (.discarding (e :: es) cause :: .code a' :: below)) := by
  refine .go hspine ?_
  rw [<- hentries]
  cases h with
  | empty => cases hentries
  | live c =>
      simp only [Affords, atHand, stackWeight_cons, Frame.weight, Handle.entries, dropWeight_cons,
        Entry.unnamed, Entry.dropWeight, dropWeight_nil, Handle.weight] at hweight ⊢
      omega

theorem spends_give (hcontrol : s.control = .run) (hstack : s.stack = .code a :: below) :
    s.Spends rounds (s.give a.flow.result below) := by
  have hresult : a.flow.result.weight + 5 ≤ a.weight := by
    simp only [Activation.weight]
    cases a.flow <;> simp only [Flow.result, Flow.weight, Handle.weight_empty] <;> omega
  have hhand : s.atHand rounds = s.world.weight rounds + a.weight + stackWeight below := by
    simp only [atHand, hstack, hcontrol, stackWeight_cons, Frame.weight, Control.weight]
    omega
  unfold State.give
  split
  · rename_i source rest
    split
    · refine .lift hcontrol Message.noConfusion (by rw [hstack]; rfl) ?_
      rename_i next hlive
      rw [hlive] at hresult
      simp only [Affords, hhand, stackWeight_cons, Frame.weight, Signal.weight,
        Handle.weight_live] at hresult ⊢
      omega
    · refine .lift hcontrol Message.noConfusion (by rw [hstack]; rfl) ?_
      simp only [Affords, hhand, stackWeight_cons, Frame.weight, Signal.weight]
      omega
  · rename_i lease rest
    split
    · refine .stage (by rw [hstack]; rfl) rfl ?_
      simp only [Affords, hhand, stackWeight_cons, Frame.weight, FiberStage.weight]
      omega
    · exact .halt
  · rename_i entries cause rest
    refine .go (by rw [hstack]; rfl) ?_
    have hdrop : dropWeight a.flow.result.entries ≤ a.flow.result.weight := by
      cases a.flow.result with
      | empty => exact Nat.le_refl 0
      | live c => exact Nat.le_of_ble_eq_true rfl
    simp only [Affords, hhand, stackWeight_cons, Frame.weight, dropWeight_append]
    omega
  · rename_i rest
    have hafter : spine (dropFirst a.flow.result.entries (.root .ending :: rest)) =
        .root .ending :: spine rest := by rw [spine_dropFirst, spine_root]
    have hbefore : spine s.stack = .root .program :: spine rest := by rw [hstack]; rfl
    refine .settle hbefore hafter rfl ?_
    have hdrop := stackWeight_dropHandle a.flow.result (.root .ending :: rest)
    simp only [Affords, hhand, stackWeight_cons, Frame.weight, RootStage.weight] at hdrop ⊢
    omega
  · exact .halt

/-- Code that comes to the end of its body has a result from then on. -/
theorem spends_finish (hcontrol : s.control = .run) (hstack : s.stack = .code a :: below)
    (hflow : 2 ≤ a.flow.weight) {result : Handle} {scene : Scene}
    (hresult : (Scene.mk s.world a).defaultResult = (result, scene)) :
    s.Spends rounds (s.proceed (scene.flow (.returning result)) below) := by
  have hcode : s.Spares rounds ⟨s.world, a⟩ below 0 := by
    refine ⟨by rw [hstack, spine_code], rfl, ?_⟩
    simp only [atHand, hstack, hcontrol, stackWeight_cons, Frame.weight, Scene.weight,
      Control.weight]
    omega
  have hspares : s.Spares rounds scene below result.weight ∧ scene.code.flow = a.flow := by
    unfold Scene.defaultResult at hresult
    split at hresult
    · rename_i argument hrole
      have hsame := Scene.flow_take (s := ⟨s.world, a⟩) argument
      rw [hresult] at hsame
      exact ⟨(hcode.take hresult).mono (by omega), hsame⟩
    · cases hresult
      exact ⟨hcode, rfl⟩
    · cases hresult
      exact ⟨hcode, rfl⟩
  have hreturning : (Flow.returning result).weight = 1 + result.weight := rfl
  exact Spares.proceed (n := 1) (hspares.1.flow (by rw [hspares.2]; omega)) (Nat.le_refl 1)

theorem spends_runCode (hrounds : rounds ≤ 100) (hcontrol : s.control = .run)
    (hstack : s.stack = .code a :: below) : s.Spends rounds (s.runCode a below) := by
  have hspine : spine below = spine s.stack := by rw [hstack, spine_code]
  unfold State.runCode
  split
  · exact spends_give hcontrol hstack
  · rename_i b outer hblocks
    have hhand : stackWeight s.stack + s.control.weight =
        b.weight + blocksWeight outer + a.flow.weight + 4 + stackWeight below := by
      simp only [hstack, hcontrol, stackWeight_cons, Frame.weight, Activation.weight, hblocks,
        blocksWeight_cons, Control.weight]
      omega
    split
    · rename_i op rest hflow hcode
      have hop : s.operation? = some op := by
        simp only [operation?, hcontrol, hstack, hflow, hblocks, hcode, List.head?_cons]
      refine Spares.execute ⟨hspine, rfl, ?_⟩ hrounds hop
      simp only [Scene.weight, Activation.weight, blocksWeight_cons, Block.weight, hcode, atHand,
        codeWeight_cons] at hhand ⊢
      omega
    · rename_i hflow hcode
      exact spends_finish hcontrol hstack (by rw [hflow]; decide) rfl
    · rename_i hflow
      exact spends_finish hcontrol hstack (by rw [hflow]; decide) rfl
    · split
      · rename_i e es hunwanted
        have hentries : a.flow.result.entries = e :: es := by
          unfold Activation.unwanted at hunwanted
          split at hunwanted
          · exact hunwanted
          · cases hunwanted
        refine spends_result hspine hentries ?_
        rw [hhand]
        simp only [Activation.weight, hblocks, blocksWeight_cons]
        cases hflow : a.flow with
        | onward | leavingLoop =>
            rw [hflow] at hentries
            cases hentries
        | returning result =>
            simp only [Flow.weight, Flow.result, Handle.weight_empty]
            omega
      · exact spends_endBlock hrounds hstack hblocks
      · rename_i e es hunwanted hentries
        refine spends_closing hspine ?_
        rw [hhand]
        simp only [Activation.weight, blocksWeight_cons, Block.weight, hentries, codeWeight_nil,
          entriesWeight_nil]
        omega

/-! ## Calls that go on by themselves -/

theorem spends_runCall {call : Call} (hrounds : rounds ≤ 100) (hcontrol : s.control = .run)
    (hstack : s.stack = .calling call a :: below) : s.Spends rounds (s.runCall call a below) := by
  have hhand : s.atHand rounds =
      s.world.weight rounds + call.weight + a.weight + stackWeight below := by
    simp only [atHand, hstack, hcontrol, stackWeight_cons, Frame.weight, Control.weight]
    omega
  have hspares : forall {n : Nat} {w : World}, spine s.stack = spine below ->
      w.globals = s.world.globals -> w.hosts = s.world.hosts -> n ≤ call.weight ->
        s.Spares rounds ⟨w, a⟩ below n := by
    intro n w hspine hglobals hhosts hn
    refine ⟨hspine.symm, hhosts, ?_⟩
    rw [hhand]
    simp only [Scene.weight, World.weight, hglobals]
    omega
  unfold State.runCall
  split
  · rename_i note
    have hcode : s.Spares rounds ⟨note.elim s.world (s.world.note a.label), a⟩ below 2 := by
      apply hspares
      · rw [hstack, spine_store]
      · cases note <;> rfl
      · cases note <;> rfl
      · exact Nat.le_refl 2
    exact hcode.proceed (by omega)
  · rename_i slot h pending note
    have hput := Scene.weight_put ⟨s.world, a⟩ hrounds slot h
    generalize Scene.put ⟨s.world, a⟩ slot h = stored at hput
    rcases stored with ⟨old, scene⟩
    have hdrop := stackWeight_dropHandle old (.calling (.store pending note) scene.code :: below)
    refine .go (by rw [spine_dropFirst, hstack]; rfl) ?_
    simp only [Affords, hhand, stackWeight_cons, Frame.weight, Call.weight, pendingWeight_cons,
      Scene.weight] at hput hdrop ⊢
    omega
  · rename_i cause
    have hcode : s.Spares rounds ⟨(s.world.trace .spanLeft).note a.label (.buildFailed cause), a⟩
        below 4 := hspares (by rw [hstack, spine_failBuild]) rfl rfl (Nat.le_refl 4)
    exact hcode.proceed (by omega)
  · rename_i refusal slot onRefusal
    have hcode : s.Spares rounds ⟨s.world, a⟩ below (240 + refusal.handle.weight) :=
      hspares (by rw [hstack, spine_refuse]) rfl rfl (Nat.le_refl _)
    dsimp only
    split
    · refine (hcode.note _).store none ?_
      simp only [pendingWeight_cons, pendingWeight_nil]
      omega
    · exact (hcode.note _).drop (by omega)
  all_goals exact .halt

/-! ## Dropping and unwinding -/

theorem spends_unwindCode {cause : Unwind}
    (hspine : spine below = spine s.stack)
    (hhand : a.weight + 2 + stackWeight below ≤ stackWeight s.stack + s.control.weight) :
    s.Spends rounds (s.unwindCode cause a below) := by
  unfold State.unwindCode
  split
  · rename_i e es hentries
    refine spends_result hspine hentries ?_
    cases hflow : a.flow with
    | onward | leavingLoop =>
        rw [hflow] at hentries
        cases hentries
    | returning result =>
        simp only [Activation.weight, hflow, Flow.weight, Flow.result] at hhand ⊢
        omega
  · refine .go hspine ?_
    simp only [Affords, atHand, stackWeight_cons, Frame.weight, dropWeight_nil,
      Activation.weight] at hhand ⊢
    omega
  · rename_i b outer hresult hblocks
    have hflow : 1 ≤ a.flow.weight := by
      cases a.flow <;> simp only [Flow.weight] <;> omega
    have honward : Flow.onward.weight = 3 := rfl
    simp only [Activation.weight, hblocks, blocksWeight_cons] at hhand
    split
    · rename_i e es hentries
      refine spends_closing hspine ?_
      simp only [Block.weight, hentries, Activation.weight, blocksWeight_cons, codeWeight_nil,
        entriesWeight_nil] at hhand ⊢
      omega
    · have hafter : forall (w : World) (top : List Frame), w.globals = s.world.globals ->
          spine top = [] -> stackWeight top ≤ 2 ->
            s.Spends rounds (s.go w
              (top ++ .code { a with flow := .onward, blocks := outer } :: below)) := by
        intro w top hglobals htop hless
        refine .go ?_ ?_
        · rw [spine_append, htop]
          exact hspine
        · simp only [Affords, atHand, World.weight, hglobals, stackWeight_append, stackWeight_cons,
            Frame.weight, Activation.weight, Block.weight] at hhand ⊢
          omega
      have hunwinds : forall w : World, w.globals = s.world.globals ->
          s.Spends rounds (s.raise w cause []
            (.code { a with flow := .onward, blocks := outer } :: below)) := by
        intro w hglobals
        exact hafter w [.discarding [] (some cause)] hglobals rfl (Nat.le_refl 2)
      dsimp only
      split
      · exact hafter _ [] rfl rfl (Nat.zero_le 2)
      · exact hafter _ [] rfl rfl (Nat.zero_le 2)
      · exact hunwinds _ rfl
      · exact hunwinds _ rfl

theorem spends_unwindInto {cause : Unwind} {stack : List Frame} (hcontrol : s.control = .run)
    (hstack : s.stack = .discarding [] (some cause) :: stack)
    (hroot : forall stage rest, stack = .root stage :: rest -> stage = .program) :
    s.Spends rounds (s.unwindInto cause stack) := by
  have hhand : stackWeight s.stack + s.control.weight = stackWeight stack + 2 := by
    simp only [hstack, hcontrol, stackWeight_cons, Frame.weight, dropWeight_nil, Control.weight]
    omega
  have hspine : spine s.stack = spine stack := by rw [hstack, spine_discarding]
  -- A call that is unwound leaves its code, and drops what it has in hand.
  have hcall : forall {call : Call} {a : Activation} {below : List Frame} {w : World}
      {entries : List Entry}, stack = .calling call a :: below -> w.globals = s.world.globals ->
        spine stack = spine below -> dropWeight entries + 1 ≤ call.weight ->
          s.Spends rounds (s.raise w cause entries (.code a :: below)) := by
    intro call a below w entries heq hglobals hsame hless
    refine .go (by rw [hspine, hsame]; rfl) ?_
    subst heq
    simp only [Affords, atHand, World.weight, hglobals, stackWeight_cons, Frame.weight] at hhand ⊢
    omega
  unfold State.unwindInto
  split
  · rename_i a below
    refine spends_unwindCode (by rw [hspine, spine_code]) ?_
    simp only [stackWeight_cons, Frame.weight] at hhand
    omega
  · exact hcall rfl rfl (spine_failBuild _ _ _) (Nat.le_of_ble_eq_true rfl)
  · rename_i refusal slot onRefusal a below
    refine hcall rfl rfl (spine_refuse _ _ _ _ _) ?_
    have hdrop : dropWeight refusal.handle.entries ≤ 8 := by
      cases refusal.handle <;> exact Nat.le_of_ble_eq_true rfl
    simp only [Call.weight]
    omega
  · rename_i pending note a below
    refine hcall rfl rfl (spine_store _ _ _ _) ?_
    have hpending := dropWeight_pending pending
    simp only [Call.weight]
    omega
  · refine .go (by rw [hspine]; rfl) ?_
    simp only [Affords, atHand, stackWeight_cons, Frame.weight] at hhand ⊢
    omega
  · exact .halt
  · rename_i source below
    split
    · exact .halt
    · refine .lift hcontrol Message.noConfusion (by rw [hspine]; rfl) ?_
      simp only [Affords, atHand, stackWeight_cons, Frame.weight, Signal.weight] at hhand ⊢
      omega
  · rename_i lease below
    split
    · exact .halt
    · refine .stage (by rw [hspine]; rfl) rfl ?_
      simp only [Affords, atHand, stackWeight_cons, Frame.weight, FiberStage.weight] at hhand ⊢
      omega
  · exact .halt
  · rename_i stage below
    cases hroot stage below rfl
    split
    · have hbefore : spine s.stack = .root .program :: spine below := hspine
      refine .settle hbefore (spine_root _ _) rfl ?_
      simp only [Affords, atHand, stackWeight_cons, Frame.weight, RootStage.weight, drainRounds,
        List.length_nil] at hhand ⊢
      omega
    · exact .halt
  · exact .halt

theorem spends_runDiscarding {entries : List Entry} {cause : Option Unwind}
    (hcontrol : s.control = .run) (hstack : s.stack = .discarding entries cause :: below)
    (hroot : cause ≠ none -> forall stage rest, below = .root stage :: rest -> stage = .program) :
    s.Spends rounds (s.runDiscarding entries cause below) := by
  have hspine : spine below = spine s.stack := by rw [hstack, spine_discarding]
  have hhand : stackWeight s.stack + s.control.weight =
      dropWeight entries + 2 + stackWeight below := by
    simp only [hstack, hcontrol, stackWeight_cons, Frame.weight, Control.weight]
    omega
  unfold State.runDiscarding
  split
  · split
    · refine .go hspine ?_
      simp only [Affords, atHand, dropWeight_nil] at hhand ⊢
      omega
    · rename_i cause
      exact spends_unwindInto hcontrol hstack (hroot (Option.some_ne_none cause))
  · rename_i name rest
    refine .go hspine ?_
    simp only [Affords, atHand, stackWeight_cons, Frame.weight, dropWeight_cons,
      Entry.dropWeight] at hhand ⊢
    omega
  · rename_i name fiber rest
    refine .abandon hcontrol hstack hspine ?_
    have hsame : (s.world.trace (.abandoned fiber)).weight rounds = s.world.weight rounds := rfl
    simp only [Affords, atHand, stackWeight_cons, Frame.weight, dropWeight_cons, Entry.dropWeight,
      Signal.weight, hsame] at hhand ⊢
    omega
  · rename_i label onDrop rest
    have hsame : (World.report { s.world with liveGuards := s.world.liveGuards - 1 }
        (.dropped label s.kind)).weight rounds = s.world.weight rounds := rfl
    dsimp only
    split
    · refine .go hspine ?_
      simp only [Affords, atHand, stackWeight_cons, Frame.weight, dropWeight_cons,
        Entry.dropWeight, hsame] at hhand ⊢
      omega
    · refine .go hspine ?_
      simp only [Affords, atHand, stackWeight_cons, Frame.weight, dropWeight_cons,
        Entry.dropWeight, hsame, Activation.ofCode, Activation.weight, blocksWeight_cons,
        blocksWeight_nil, Block.weight, BlockKind.weight, Flow.weight, entriesWeight_nil] at hhand ⊢
      omega

/-! ## The lowest frames -/

theorem length_globalNames (w : World) : w.globalNames.length = w.globals.length := by
  simp [World.globalNames]

theorem spends_runRoot {stage : RootStage} (hcontrol : s.control = .run)
    (hstack : s.stack = .root stage :: below) : s.Spends rounds (s.runRoot stage below) := by
  have hspine : spine s.stack = .root stage :: spine below := by rw [hstack, spine_root]
  have hhand : stackWeight s.stack + s.control.weight = stage.weight + stackWeight below := by
    simp only [hstack, hcontrol, stackWeight_cons, Frame.weight, Control.weight]
    omega
  unfold State.runRoot
  split
  · exact .halt
  · refine .settle hspine rfl rfl ?_
    have hsame : (s.world.report .ended).weight rounds = s.world.weight rounds := rfl
    simp only [Affords, atHand, stackWeight_cons, Frame.weight, RootStage.weight, drainRounds,
      List.length_nil, hsame] at hhand ⊢
    omega
  · rename_i left name names found panic
    have htake := s.world.weight_take rounds name
    split
    · rename_i fiber w hlive
      refine .settle hspine rfl rfl ?_
      simp only [hlive, Handle.weight_live] at htake
      simp only [Affords, atHand, stackWeight_cons, Frame.weight, RootStage.weight,
        List.length_cons, Handle.entries, dropWeight_cons, Entry.unnamed, Entry.dropWeight,
        dropWeight_nil] at hhand ⊢
      omega
    · rename_i w hempty
      refine .settle hspine rfl rfl ?_
      simp only [hempty, Handle.weight_empty] at htake
      simp only [Affords, atHand, stackWeight_cons, Frame.weight, RootStage.weight,
        List.length_cons] at hhand ⊢
      omega
  · exact .round hcontrol hstack
  · exact .halt

theorem spends_runBase {stage : FiberStage} (hcontrol : s.control = .run)
    (hstack : s.stack = .base stage :: below) : s.Spends rounds (s.runBase stage below) := by
  unfold State.runBase
  split
  · rename_i lease ending
    refine .exit hstack ?_
    have hsame : (s.world.trace (.exiting lease.name)).weight rounds = s.world.weight rounds := rfl
    simp only [Affords, atHand, hstack, hcontrol, stackWeight_cons, Frame.weight,
      FiberStage.weight, Signal.weight, Control.weight, hsame]
    omega
  · exact .halt

/-! ## Arrivals -/

theorem Spares.of_call {source : ContextId} {message : Message} {call : Call}
    (hcontrol : s.control = .landed source (.message message))
    (hstack : s.stack = .calling call a :: below) (hspine : Fibers.spine below = Fibers.spine s.stack)
    (hn : n ≤ call.weight + (Signal.message message).weight) :
    s.Spares rounds ⟨s.world, a⟩ below n := by
  refine ⟨hspine, rfl, ?_⟩
  simp only [atHand, hstack, hcontrol, stackWeight_cons, Frame.weight, Control.weight, Scene.weight]
  omega

theorem spends_conclude {fiber : ContextId} {query : Query} {reply : Reply}
    {purpose : ProbePurpose} (hcontrol : s.control = .landed fiber (.message .handover))
    (hstack : s.stack = .calling (.probe query (some reply) purpose) a :: below) :
    s.Spends rounds (s.conclude ⟨s.world, a⟩ below fiber reply purpose) := by
  have hcode : s.Spares rounds ⟨s.world, a⟩ below (544 + purpose.weight) := by
    refine .of_call hcontrol hstack (by rw [hstack, spine_probe]) ?_
    simp only [Call.weight, Signal.weight]
    omega
  unfold State.conclude
  split
  · split
    · refine hcode.store _ ?_
      simp only [pendingWeight_cons, pendingWeight_nil, Handle.weight_live]
      omega
    · exact .halt
  · rename_i switch onTop
    split
    · rename_i binding
      have hweight : (ProbePurpose.check switch onTop).weight = leftoverWeight onTop := rfl
      dsimp only
      split
      · rename_i hallows
        have hswitch : s.switch? = some switch := by
          simp [switch?, operation?_landed hcontrol, hcontrol, hstack, hallows]
        exact hcode.depart hswitch fiber (by omega)
      · have hleft := entriesWeight_leftover onTop
        have hdrop := stackWeight_dropFirst (Closure.leftover onTop)
          (.calling (.refuse ⟨.live fiber, binding, s.world.hosts.resolve switch.host⟩ switch.slot
            switch.onRefusal) a :: below)
        have hcost := hcode.weight
        refine .go (by rw [spine_dropFirst, hstack]; rfl) ?_
        have hsame : (s.world.trace (.refusing (s.world.hosts.resolve switch.host)
          binding)).weight rounds = s.world.weight rounds := rfl
        simp only [Affords, stackWeight_cons, Frame.weight, Call.weight, Handle.weight_live,
          Scene.weight, hsame] at hdrop hcost ⊢
        omega
    · exact .halt

theorem spends_deliver {source : ContextId} {message : Message} {host : Host}
    {onTop : Option Closure} {target : SlotName} {h : Handle}
    (hcontrol : s.control = .landed source (.message message)) (hmessage : message ≠ .query)
    (hstack : s.stack = .calling (.resume host onTop target) a :: below)
    (hhandle : h.weight ≤ (Signal.message message).weight) :
    s.Spends rounds (s.deliver h onTop target a below) := by
  have hleft := entriesWeight_leftover onTop
  have hdrop := stackWeight_dropFirst (Closure.leftover onTop)
    (.calling (.store [(target, h)] none) a :: below)
  refine .back hcontrol hmessage hstack (by rw [spine_dropFirst]; rfl) ?_
  have hsame : ((Scene.mk s.world a).note (.resumed h)).world.weight rounds =
      s.world.weight rounds := rfl
  have hcode : ((Scene.mk s.world a).note (.resumed h)).code = a := rfl
  rw [hcode]
  simp only [Affords, atHand, hstack, hcontrol, stackWeight_cons, Frame.weight, Call.weight,
    pendingWeight_cons, pendingWeight_nil, Control.weight, hsame] at hdrop ⊢
  omega

theorem spends_callBody {source : ContextId} {message : Message} {record : Record} {caller : Handle}
    (hcontrol : s.control = .landed source (.message message))
    (hstack : s.stack = .base (.idle record) :: below)
    (hhandle : caller.weight ≤ (Signal.message message).weight) :
    s.Spends rounds (s.callBody record caller below) := by
  unfold State.callBody
  split
  · rename_i body hbody
    refine .stage (by rw [hstack]; rfl) rfl ?_
    have hsame : (s.world.trace (.dispatching record.lease.name)).weight rounds =
      s.world.weight rounds := rfl
    simp only [Affords, atHand, hstack, hcontrol, stackWeight_cons, Frame.weight,
      FiberStage.weight, Record.weight, hbody, leftoverWeight, Option.elim_some, Closure.weight,
      Closure.activation, Activation.weight, blocksWeight_cons, blocksWeight_nil, Block.weight,
      BlockKind.weight, entriesWeight_cons, Entry.weight, Flow.weight, Control.weight, hsame]
    omega
  · exact .halt

theorem spends_receive {source : ContextId} {message : Message}
    (hcontrol : s.control = .landed source (.message message)) :
    s.Spends rounds (s.receive source message) := by
  unfold State.receive
  split
  · rename_i slot a below hstack
    split
    · have hcode : s.Spares rounds
          ⟨(s.world.trace (.created source)).trace .spanLeft, a⟩ below 288 :=
        Spares.world (.of_call hcontrol hstack (by rw [hstack, spine_create]) (Nat.le_refl 288))
          rfl rfl
      exact hcode.store none (Nat.le_of_ble_eq_true rfl)
    · exact .halt
  · rename_i query reply purpose a below hstack
    split
    · exact spends_conclude hcontrol hstack
    · exact .halt
    · exact .halt
  · rename_i host onTop target a below hstack
    split
    · exact spends_deliver hcontrol Message.noConfusion hstack (Nat.le_refl 32)
    · exact spends_deliver hcontrol Message.noConfusion hstack (Nat.le_refl 0)
    · exact .answer hcontrol
    · split
      · exact .halt
      · refine .back hcontrol Message.noConfusion hstack rfl ?_
        have hleft := entriesWeight_leftover onTop
        have hdrop := dropWeight_le (Closure.leftover onTop)
        have hsame : (s.world.trace (.forcedUnwind source)).weight rounds =
          s.world.weight rounds := rfl
        simp only [Affords, atHand, hstack, hcontrol, stackWeight_cons, Frame.weight, Call.weight,
          Control.weight, hsame]
        omega
  · rename_i below hstack
    split
    · refine .go (by rw [hstack, spine_dropping]) ?_
      simp only [Affords, atHand, hstack, hcontrol, stackWeight_cons, Frame.weight, Control.weight]
      omega
    · exact .halt
  · exact .halt
  · rename_i record below hstack
    split
    · exact spends_callBody hcontrol hstack (Nat.le_refl 32)
    · exact spends_callBody hcontrol hstack (Nat.le_refl 0)
    · exact .answer hcontrol
    · have hafter : spine (dropFirst (Closure.leftover record.body)
          (.base (.leaving record.lease (.unwound source)) :: below)) =
            .base (.leaving record.lease (.unwound source)) :: spine below := by
        rw [spine_dropFirst, spine_base]
      refine .stage (by rw [hstack]; rfl) hafter ?_
      have hleft := entriesWeight_leftover record.body
      have hdrop := stackWeight_dropFirst (Closure.leftover record.body)
        (.base (.leaving record.lease (.unwound source)) :: below)
      simp only [Affords, atHand, hstack, hcontrol, stackWeight_cons, Frame.weight,
        FiberStage.weight, Record.weight, Control.weight] at hdrop ⊢
      omega
  · exact .halt
  · exact .halt

theorem spends_start {maker : ContextId} {record : Option Record}
    (hcontrol : s.control = .landed maker (.start record)) :
    s.Spends rounds (s.start maker record) := by
  unfold State.start
  split
  · rename_i below record hstack
    refine .start hcontrol hstack ?_
    simp only [Affords, atHand, hstack, hcontrol, stackWeight_cons, Frame.weight,
      FiberStage.weight, Control.weight, Signal.weight, Option.elim_some]
    omega
  · exact .halt
  · exact .halt

/-! ## All steps -/

theorem spends_run (hrounds : rounds ≤ 100) (hcontrol : s.control = .run) (hstands : s.Stands) :
    s.Spends rounds s.run := by
  unfold State.run
  split
  · rename_i a below hstack
    exact spends_runCode hrounds hcontrol hstack
  · rename_i call a below hstack
    exact spends_runCall hrounds hcontrol hstack
  · rename_i entries cause below hstack
    refine spends_runDiscarding hcontrol hstack ?_
    intro hcause stage rest hbelow
    rw [Stands, hcontrol, hstack] at hstands
    cases cause with
    | none => exact absurd rfl hcause
    | some cause =>
        rcases hstands with ⟨⟨-, hcarries, -⟩, -⟩
        rw [hbelow] at hcarries
        rcases hcarries with hcode | hcode
        · exact False.elim hcode
        · cases stage with
          | program => rfl
          | ending | draining left names found panic => exact False.elim hcode
  · rename_i stage below hstack
    exact spends_runBase hcontrol hstack
  · rename_i stage below hstack
    exact spends_runRoot hcontrol hstack
  all_goals exact .halt

/-- Every step is paid for, but for one that begins a round at the end of the run. -/
theorem spends_step (hrounds : rounds ≤ 100) (hstands : s.Stands) : s.Spends rounds s.step := by
  unfold State.step
  split
  · rename_i hcontrol
    exact spends_run hrounds hcontrol hstands
  · rename_i source signal hcontrol
    cases signal with
    | message message => exact spends_receive hcontrol
    | onTop => exact .call hcontrol
    | exit => exact .release hcontrol
    | start record => exact spends_start hcontrol

end State

end Fibers
