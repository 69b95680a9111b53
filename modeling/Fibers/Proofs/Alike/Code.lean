import Fibers.Proofs.Alike.Switch

/-!
# Code that is alike

Code with the same next operation does the same, up to what is inside of that operation.  What code
does otherwise, when it closes a block or hands its result on, does not hang on the operations left.
-/

namespace Fibers

variable {R : List Op -> List Op -> Prop} {l l' : List LogEntry}

/-! ## Results -/

namespace State.Near

variable {s s' : State} {stack stack' below below' : List Frame}

theorem give (h : s.Near R l l' s') (result : Handle) (hstack : StacksAlike R stack stack') :
    Config.Alike R l l' (s.give result stack) (s'.give result stack') := by
  cases hstack with
  | nil => exact h.stuck
  | cons hframe hbelow =>
      cases hframe with
      | onTop source =>
          cases result with
          | empty =>
              exact .active ⟨⟨h.running, h.contexts, h.world⟩, hbelow, .landed _ (.message _)⟩
          | live next =>
              exact .active ⟨⟨h.running, h.contexts, h.world⟩, hbelow, .landed _ (.message _)⟩
      | discarding cause hentries =>
          exact h.go h.world (.cons (.discarding _ (List.rel_append result.entries_alike hentries))
            hbelow)
      | base hstage =>
          cases hstage with
          | busy lease =>
              cases result with
              | empty => exact h.breach _
              | live next => exact h.go h.world (.cons (.base (.leaving _ _)) hbelow)
          | _ => exact h.stuck
      | root stage =>
          cases stage with
          | program =>
              exact h.go h.world (dropFirst_alike result.entries_alike (.cons (.root _) hbelow))
          | _ => exact h.stuck
      | _ => exact h.stuck

theorem endBlock (h : s.Near R l l' s') {a a' : Activation} (hcode : a.Alike R a') {b b' : Block}
    (hblock : b.Alike R b') {outer outer' : List Block}
    (houter : BlocksAlike R outer outer') (hbelow : StacksAlike R below below') :
    Config.Alike R l l' (s.endBlock a b outer below) (s'.endBlock a' b' outer' below') := by
  cases hcode with
  | mk label role flow hblocks =>
      have haround : (Activation.mk label role outer flow).Alike R ⟨label, role, outer', flow⟩ :=
        .mk _ _ _ houter
      have hleave : Config.Alike R l l' (s.go s.world (.code ⟨label, role, outer, flow⟩ :: below))
          (s'.go s'.world (.code ⟨label, role, outer', flow⟩ :: below')) :=
        h.go h.world (.cons (.code haround) hbelow)
      cases hblock with
      | mk hkind hcode hentries =>
          cases flow with
          | returning result => exact hleave
          | leavingLoop =>
              have hout := h.go h.world (.cons (.code (.mk label role .onward houter)) hbelow)
              cases hkind with
              | rounds left hloop => exact hout
              | whileLive slot left hloop => exact hout
              | body => exact hleave
              | scope => exact hleave
              | attempt swallow => exact hleave
          | onward =>
              cases hkind with
              | body => exact hleave
              | scope => exact hleave
              | attempt swallow => exact hleave
              | rounds left hloop =>
                  cases left with
                  | zero => exact hleave
                  | succ left =>
                      exact h.go h.world (.cons (.code (.mk _ _ _
                        (.cons (.mk (.rounds left hloop) hloop .nil) houter))) hbelow)
              | whileLive slot left hloop =>
                  cases left with
                  | zero => exact hleave
                  | succ left =>
                      have hlook := (Scene.Alike.mk h.world haround).look slot
                      simp only [State.endBlock, hlook.fst]
                      split
                      · exact h.proceed hlook.snd hbelow
                      · exact h.proceed (hlook.snd.enter (.whileLive _ _ hloop) hloop) hbelow

end State.Near

/-! ## Operations -/

/-- Whether an operation has no code inside. -/
def Op.isPlain : Op -> Bool
  | .create _ _ _ _ | .resumeWith _ _ _ _ | .guard _ _ | .scope _ | .rounds _ _
  | .whileLive _ _ _ | .ifEmpty _ _ _ | .ifCell _ _ _ _ | .attempt _ _ => false
  | _ => true

section

variable (R)

/-- Operations that do the same with related code inside. -/
inductive Op.Alike : Op -> Op -> Prop where
  | create (fiber : FiberSpec) (captures : List String) (moves : List SlotName)
      {body body' : List Op} :
      R body body' -> Alike (.create fiber captures moves body) (.create fiber captures moves body')
  | resumeWith (switch : SwitchSpec) (captures : List String) (moves : List SlotName)
      {onTop onTop' : List Op} :
      R onTop onTop' ->
        Alike (.resumeWith switch captures moves onTop) (.resumeWith switch captures moves onTop')
  | guard (label : String) {onDrop onDrop' : List Op} :
      R onDrop onDrop' -> Alike (.guard label onDrop) (.guard label onDrop')
  | scope {ops ops' : List Op} : R ops ops' -> Alike (.scope ops) (.scope ops')
  | rounds (count : Nat) {ops ops' : List Op} :
      R ops ops' -> Alike (.rounds count ops) (.rounds count ops')
  | whileLive (slot : SlotName) (limit : Nat) {ops ops' : List Op} :
      R ops ops' -> Alike (.whileLive slot limit ops) (.whileLive slot limit ops')
  | ifEmpty (slot : SlotName) {yes yes' no no' : List Op} :
      R yes yes' -> R no no' -> Alike (.ifEmpty slot yes no) (.ifEmpty slot yes' no')
  | ifCell (cell : String) (atLeast : Nat) {yes yes' no no' : List Op} :
      R yes yes' -> R no no' -> Alike (.ifCell cell atLeast yes no) (.ifCell cell atLeast yes' no')
  | attempt (swallow : Bool) {ops ops' : List Op} :
      R ops ops' -> Alike (.attempt swallow ops) (.attempt swallow ops')
  | plain {op : Op} : op.isPlain -> Alike op op

/-- Code that comes to the same operation, or to its end. -/
inductive Next : List Op -> List Op -> Prop where
  | done : Next [] []
  | op {op op' : Op} {rest rest' : List Op} :
      Op.Alike R op op' -> R rest rest' -> Next (op :: rest) (op' :: rest')

/-- A relation of code that goes with the ways in which the machine makes code. -/
structure Composes : Prop where
  nil : R [] []
  append {code code' rest rest' : List Op} :
    R code code' -> R rest rest' -> R (code ++ rest) (code' ++ rest')

end

theorem Scene.Alike.prepend {s s' : Scene} (h : s.Alike R l l' s') (hR : Composes R)
    {ops ops' : List Op} (hops : R ops ops') :
    (s.prepend ops).Alike R l l' (s'.prepend ops') := by
  cases h with
  | mk hworld hcode =>
      cases hcode with
      | mk label role flow hblocks =>
          cases hblocks with
          | nil => exact .mk hworld (.mk _ _ _ .nil)
          | cons hblock houter =>
              cases hblock with
              | mk hkind hcode hentries =>
                  exact .mk hworld
                    (.mk _ _ _ (.cons (.mk hkind (hR.append hops hcode) hentries) houter))

namespace State.Near

variable {s s' : State} {scene scene' : Scene} {below below' : List Frame}

/-- Operations without code inside are done alike. -/
theorem execute_plain (h : s.Near R l l' s') (hscene : scene.Alike R l l' scene')
    (hbelow : StacksAlike R below below') {op : Op} (hplain : op.isPlain) :
    Config.Alike R l l' (s.execute scene below op) (s'.execute scene' below' op) := by
  have hhosts := hscene.world.hosts
  cases op <;> simp only [Op.isPlain, Bool.false_eq_true] at hplain
  case resume switch => exact h.resume hscene hbelow switch .none
  case ask question slot => exact h.ask hscene hbelow question slot
  case drop slot =>
    have htake := hscene.take slot
    simp only [State.execute, htake.fst]
    exact h.go htake.snd.world (dropFirst_alike (Handle.entries_alike _)
      (.cons (.code htake.snd.code) hbelow))
  case move slot target =>
    have htake := hscene.take slot
    simp only [State.execute, htake.fst]
    exact h.store htake.snd hbelow _ _
  case isEmpty slot =>
    have hlook := hscene.look slot
    simp only [State.execute, hlook.fst]
    exact h.proceed (hlook.snd.note _) hbelow
  case display slot =>
    have hlook := hscene.look slot
    simp only [State.execute, hlook.fst]
    exact h.proceed (hlook.snd.note _) hbelow
  case debug slot =>
    have hlook := hscene.look slot
    simp only [State.execute, hlook.fst]
    exact h.proceed (hlook.snd.note _) hbelow
  case compare a b =>
    have hfirst := hscene.take a
    have hsecond := hfirst.snd.take b
    simp only [State.execute, hfirst.fst, hsecond.fst]
    split
    · exact h.store hfirst.snd hbelow _ _
    · exact h.store hsecond.snd hbelow _ _
  case collect slots =>
    have htake := hscene.takeAll slots
    simp only [State.execute, htake.fst]
    exact h.store htake.snd hbelow _ _
  case leaveLoop => exact h.proceed (hscene.flow _) hbelow
  case giveBack slot =>
    have htake := hscene.take slot
    simp only [State.execute, htake.fst]
    exact h.proceed (htake.snd.flow _) hbelow
  case panic payload => exact h.panic hscene hbelow _ .nil
  case say message => exact h.proceed (hscene.note _) hbelow
  case whereAmI =>
    simp only [State.execute, h.kind]
    exact h.proceed (hscene.note _) hbelow
  case setCell cell source =>
    simp only [State.execute, hscene.world.read]
    exact h.proceed (.mk (hscene.world.setCell _ _) hscene.code) hbelow
  case addCell cell source =>
    simp only [State.execute, hscene.world.read, hscene.world.cell]
    exact h.proceed (.mk (hscene.world.setCell _ _) hscene.code) hbelow
  case printCell cell =>
    simp only [State.execute, hscene.world.cell]
    exact h.proceed (hscene.note _) hbelow
  case compareHosts a b =>
    simp only [State.execute, hhosts]
    exact h.proceed (hscene.note _) hbelow
  case checkAffinity binding host =>
    simp only [State.execute, hhosts]
    exact h.proceed (hscene.note _) hbelow
  case currentHost =>
    simp only [State.execute, hhosts]
    exact h.proceed (hscene.note _) hbelow
  case defaultAffinity => exact h.proceed (hscene.note _) hbelow
  case describeStacks settings => exact h.proceed (hscene.note _) hbelow

theorem execute (h : s.Near R l l' s') (hR : Composes R) (hscene : scene.Alike R l l' scene')
    (hbelow : StacksAlike R below below') {op op' : Op} (hop : op.Alike R op') :
    Config.Alike R l l' (s.execute scene below op) (s'.execute scene' below' op') := by
  cases hop with
  | plain hplain => exact h.execute_plain hscene hbelow hplain
  | create spec captures moves hbody =>
      have hcapture := hscene.capture hR.nil spec.label (.own "caller") captures moves hbody
      exact h.create hcapture.2 hbelow spec hcapture.1
  | resumeWith switch captures moves honTop =>
      have hlabel : scene'.code.label = scene.code.label := hscene.label
      simp only [State.execute, hlabel]
      have hcapture := hscene.capture hR.nil (scene.code.label ++ "^") (.own "source") captures
        moves honTop
      exact h.resume hcapture.2 hbelow switch (.some hcapture.1)
  | guard label honDrop =>
      exact h.proceed (Scene.Alike.declare (.mk (hscene.world.addGuards 1) hscene.code)
        (.guard label honDrop)) hbelow
  | scope hops => exact h.proceed (hscene.enter .scope hops) hbelow
  | rounds count hops => exact h.proceed (hscene.enter (.rounds _ hops) hR.nil) hbelow
  | whileLive slot limit hops =>
      exact h.proceed (hscene.enter (.whileLive _ _ hops) hR.nil) hbelow
  | ifEmpty slot hyes hno =>
      have hlook := hscene.look slot
      simp only [State.execute, hlook.fst]
      refine h.proceed (hlook.snd.prepend hR ?_) hbelow
      split
      · exact hyes
      · exact hno
  | ifCell cell atLeast hyes hno =>
      simp only [State.execute, hscene.world.cell]
      refine h.proceed (hscene.prepend hR ?_) hbelow
      split
      · exact hyes
      · exact hno
  | attempt swallow hops => exact h.proceed (hscene.enter (.attempt _) hops) hbelow

end State.Near

/-! ## Code -/

/-- Closes the innermost block of code, after what has to be dropped before. -/
def State.leaveBlock (s : State) (a : Activation) (b : Block) (outer : List Block)
    (below : List Frame) : Config :=
  match a.unwanted outer, b.entries with
  | e :: es, _ =>
      s.go s.world
        (.discarding (e :: es) none :: .code { a with flow := .returning .empty } :: below)
  | [], [] => s.endBlock a b outer below
  | [], e :: es =>
      let closed : Block := { b with code := [], entries := [] }
      s.go s.world
        (.discarding (e :: es) none :: .code { a with blocks := closed :: outer } :: below)

theorem Activation.Alike.unwanted {a a' : Activation} (h : a.Alike R a') {outer outer' : List Block}
    (houter : BlocksAlike R outer outer') :
    EntriesAlike R (a.unwanted outer) (a'.unwanted outer') := by
  cases h with
  | mk label role flow hblocks =>
      cases houter with
      | cons hblock houter => cases role <;> exact .nil
      | nil =>
          cases role with
          | called argument => exact .nil
          | program => exact .nil
          | cleanup => exact Handle.entries_alike _

namespace State.Near

variable {s s' : State} {below below' : List Frame} {a a' : Activation}

theorem leaveBlock (h : s.Near R l l' s') (hnil : R [] []) (hcode : a.Alike R a') {b b' : Block}
    (hblock : b.Alike R b') {outer outer' : List Block}
    (houter : BlocksAlike R outer outer') (hbelow : StacksAlike R below below') :
    Config.Alike R l l' (s.leaveBlock a b outer below) (s'.leaveBlock a' b' outer' below') := by
  have hend := h.endBlock hcode hblock houter hbelow
  have hunwanted := hcode.unwanted houter
  simp only [State.leaveBlock]
  generalize a.unwanted outer = unwanted, a'.unwanted outer' = unwanted' at hunwanted ⊢
  cases hcode with
  | mk label role flow hblocks =>
      cases hunwanted with
      | cons hentry hrest =>
          exact h.go h.world (.cons (.discarding _ (.cons hentry hrest))
            (.cons (.code (.mk _ _ _ hblocks)) hbelow))
      | nil =>
          cases hblock with
          | mk hkind hops hentries =>
              cases hentries with
              | nil => exact hend
              | cons hentry hrest =>
                  exact h.go h.world (.cons (.discarding _ (.cons hentry hrest))
                    (.cons (.code (.mk _ _ _ (.cons (.mk hkind hnil .nil) houter))) hbelow))

/-- Code that takes an operation takes the same one; all other code goes on alike anyway. -/
theorem runCode (h : s.Near R l l' s') (hR : Composes R) (hcode : a.Alike R a')
    (hbelow : StacksAlike R below below')
    (hnext : forall {b b' outer outer'}, a.flow = .onward -> a.blocks = b :: outer ->
      a'.blocks = b' :: outer' -> Next R b.code b'.code) :
    Config.Alike R l l' (s.runCode a below) (s'.runCode a' below') := by
  have hresult := (Scene.Alike.mk h.world hcode).defaultResult
  have hfinish : Config.Alike R l l'
      (s.proceed ((Scene.mk s.world a).defaultResult.2.flow
        (.returning (Scene.mk s.world a).defaultResult.1)) below)
      (s'.proceed ((Scene.mk s'.world a').defaultResult.2.flow
        (.returning (Scene.mk s'.world a').defaultResult.1)) below') := by
    rw [hresult.fst]
    exact h.proceed (hresult.snd.flow _) hbelow
  cases hcode with
  | mk label role flow hblocks =>
      cases hblocks with
      | nil => exact h.give _ hbelow
      | cons hblock houter =>
          -- What is left to do counts only for code that goes onward; all other leaves its block.
          have hleave := h.leaveBlock hR.nil (.mk label role flow (.cons hblock houter)) hblock
            houter hbelow
          cases flow with
          | returning result => exact hleave
          | leavingLoop =>
              cases houter with
              | nil => exact hfinish
              | cons hnext houter => exact hleave
          | onward =>
              have hops := hnext rfl rfl rfl
              cases hblock with
              | mk hkind hrelated hentries =>
                  cases hops with
                  | op hop hrest =>
                      exact h.execute hR (.mk h.world (.mk _ _ _
                        (.cons (.mk hkind hrest hentries) houter))) hbelow hop
                  | done =>
                      cases houter with
                      | nil => exact hfinish
                      | cons hnext houter => exact hleave

end State.Near

end Fibers
