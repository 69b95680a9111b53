import Fibers.Machine.Step
import Mathlib.Data.List.Forall2

/-!
# States that differ in code

Two states are alike when they differ in nothing but code, and in how far their logs went back when
the two were last told apart.  The code that stands in the same place in both is related by some
given relation.  What the machine does with code it does with all of it alike: it moves it from
frame to frame, and looks at what comes next only when it takes an operation.
-/

namespace Fibers

/-! ## Worlds -/

/-- A world whose log goes on behind its first entry. -/
def World.on (w : World) (older : List LogEntry) : World := { w with log := w.log ++ older }

/-- Two worlds that agree, but for the logs they started from. -/
inductive World.Alike (l l' : List LogEntry) : World -> World -> Prop where
  | on (w : World) : Alike l l' (w.on l) (w.on l')

/-- Two worlds that agree in all but their logs. -/
def World.Agrees (w w' : World) : Prop := w' = { w with log := w'.log }

/-- Worlds that agree are alike from now on. -/
theorem World.Agrees.alike {w w' : World} (h : w.Agrees w') : w.Alike w.log w'.log w' := by
  rw [h]
  exact .on { w with log := [] }

theorem World.Agrees.report {w w' : World} (h : w.Agrees w') (e : LogEntry) :
    w.Agrees (w'.report e) := by
  rw [h]
  rfl

/-! ## Frames -/

section

/-- Pairs with the same first component. -/
inductive Paired {α β γ : Type} (r : β -> γ -> Prop) : α × β -> α × γ -> Prop where
  | mk (a : α) {b : β} {c : γ} : r b c -> Paired r (a, b) (a, c)

variable (R : List Op -> List Op -> Prop)

inductive Entry.Alike : Entry -> Entry -> Prop where
  | slot (name : SlotName) (h : Handle) : Alike (.slot name h) (.slot name h)
  | guard (label : String) {onDrop onDrop' : List Op} :
      R onDrop onDrop' -> Alike (.guard label onDrop) (.guard label onDrop')

abbrev EntriesAlike : List Entry -> List Entry -> Prop := List.Forall₂ (Entry.Alike R)

inductive Closure.Alike : Closure -> Closure -> Prop where
  | mk (label : String) (argument : SlotName) {captured captured' : List Entry}
      {code code' : List Op} :
      EntriesAlike R captured captured' -> R code code' ->
        Alike ⟨label, captured, argument, code⟩ ⟨label, captured', argument, code'⟩

inductive BlockKind.Alike : BlockKind -> BlockKind -> Prop where
  | body : Alike .body .body
  | scope : Alike .scope .scope
  | rounds (left : Nat) {code code' : List Op} :
      R code code' -> Alike (.rounds left code) (.rounds left code')
  | whileLive (slot : SlotName) (left : Nat) {code code' : List Op} :
      R code code' -> Alike (.whileLive slot left code) (.whileLive slot left code')
  | attempt (swallow : Bool) : Alike (.attempt swallow) (.attempt swallow)

inductive Block.Alike : Block -> Block -> Prop where
  | mk {kind kind' : BlockKind} {code code' : List Op} {entries entries' : List Entry} :
      BlockKind.Alike R kind kind' -> R code code' ->
        EntriesAlike R entries entries' ->
        Alike ⟨kind, code, entries⟩ ⟨kind', code', entries'⟩

abbrev BlocksAlike : List Block -> List Block -> Prop := List.Forall₂ (Block.Alike R)

inductive Activation.Alike : Activation -> Activation -> Prop where
  | mk (label : String) (role : Role) {blocks blocks' : List Block} (flow : Flow) :
      BlocksAlike R blocks blocks' ->
        Alike ⟨label, role, blocks, flow⟩ ⟨label, role, blocks', flow⟩

inductive ProbePurpose.Alike : ProbePurpose -> ProbePurpose -> Prop where
  | question (question : Question) (slot : SlotName) :
      Alike (.question question slot) (.question question slot)
  | check (switch : SwitchSpec) {onTop onTop' : Option Closure} :
      Option.Rel (Closure.Alike R) onTop onTop' ->
        Alike (.check switch onTop) (.check switch onTop')

inductive Call.Alike : Call -> Call -> Prop where
  | create (slot : SlotName) : Alike (.create slot) (.create slot)
  | failBuild (cause : BuildError) : Alike (.failBuild cause) (.failBuild cause)
  | probe (query : Query) (reply : Option Reply) {purpose purpose' : ProbePurpose} :
      ProbePurpose.Alike R purpose purpose' ->
        Alike (.probe query reply purpose) (.probe query reply purpose')
  | resume (host : Host) {onTop onTop' : Option Closure} (target : SlotName) :
      Option.Rel (Closure.Alike R) onTop onTop' ->
        Alike (.resume host onTop target) (.resume host onTop' target)
  | refuse (refusal : Refusal) (slot : SlotName) (onRefusal : OnRefusal) :
      Alike (.refuse refusal slot onRefusal) (.refuse refusal slot onRefusal)
  | store (pending : List (SlotName × Handle)) (note : Option Note) :
      Alike (.store pending note) (.store pending note)

inductive Record.Alike : Record -> Record -> Prop where
  | mk (lease : Lease) {body body' : Option Closure} :
      Option.Rel (Closure.Alike R) body body' -> Alike ⟨lease, body⟩ ⟨lease, body'⟩

inductive FiberStage.Alike : FiberStage -> FiberStage -> Prop where
  | unborn : Alike .unborn .unborn
  | idle {record record' : Record} :
      Record.Alike R record record' -> Alike (.idle record) (.idle record')
  | busy (lease : Lease) : Alike (.busy lease) (.busy lease)
  | leaving (lease : Lease) (ending : Ending) :
      Alike (.leaving lease ending) (.leaving lease ending)
  | exited (lease : Lease) : Alike (.exited lease) (.exited lease)

inductive Frame.Alike : Frame -> Frame -> Prop where
  | code {a a' : Activation} : Activation.Alike R a a' -> Alike (.code a) (.code a')
  | calling {call call' : Call} {a a' : Activation} :
      Call.Alike R call call' -> Activation.Alike R a a' ->
        Alike (.calling call a) (.calling call' a')
  | discarding {entries entries' : List Entry} (cause : Option Unwind) :
      EntriesAlike R entries entries' ->
        Alike (.discarding entries cause) (.discarding entries' cause)
  | dropping : Alike .dropping .dropping
  | onTop (source : ContextId) : Alike (.onTop source) (.onTop source)
  | base {stage stage' : FiberStage} :
      FiberStage.Alike R stage stage' -> Alike (.base stage) (.base stage')
  | root (stage : RootStage) : Alike (.root stage) (.root stage)

abbrev StacksAlike : List Frame -> List Frame -> Prop := List.Forall₂ (Frame.Alike R)

/-- The same contexts are parked, with stacks that are alike. -/
abbrev ContextsAlike : List (ContextId × List Frame) -> List (ContextId × List Frame) -> Prop :=
  List.Forall₂ (Paired (StacksAlike R))

/-! ## States -/

inductive Signal.Alike : Signal -> Signal -> Prop where
  | message (message : Message) : Alike (.message message) (.message message)
  | onTop : Alike .onTop .onTop
  | exit : Alike .exit .exit
  | start {record record' : Option Record} :
      Option.Rel (Record.Alike R) record record' -> Alike (.start record) (.start record')

inductive Control.Alike : Control -> Control -> Prop where
  | run : Alike .run .run
  | landed (source : ContextId) {signal signal' : Signal} :
      Signal.Alike R signal signal' -> Alike (.landed source signal) (.landed source signal')

variable (l l' : List LogEntry)

inductive Scene.Alike : Scene -> Scene -> Prop where
  | mk {w w' : World} {a a' : Activation} :
      World.Alike l l' w w' -> Activation.Alike R a a' -> Alike ⟨w, a⟩ ⟨w', a'⟩

/-- The same context runs, and all that is not on its stack is alike. -/
structure State.Near (s s' : State) : Prop where
  running : s'.running = s.running
  contexts : ContextsAlike R s.contexts s'.contexts
  world : World.Alike l l' s.world s'.world

structure State.Alike (s s' : State) : Prop extends State.Near R l l' s s' where
  stack : StacksAlike R s.stack s'.stack
  control : Control.Alike R s.control s'.control

inductive Config.Alike : Config -> Config -> Prop where
  | active {s s' : State} : State.Alike R l l' s s' -> Alike (.active s) (.active s')
  | halted (outcome : Outcome) {w w' : World} :
      World.Alike l l' w w' -> Alike (.halted outcome w) (.halted outcome w')

end

variable {R : List Op -> List Op -> Prop} {l l' : List LogEntry}

/-! ## Entries -/

theorem Handle.entries_alike (h : Handle) : EntriesAlike R h.entries h.entries := by
  cases h with
  | empty => exact .nil
  | live context => exact .cons (.slot _ _) .nil

theorem dropFirst_alike {entries entries' : List Entry} {stack stack' : List Frame}
    (hentries : EntriesAlike R entries entries') (hstack : StacksAlike R stack stack') :
    StacksAlike R (dropFirst entries stack) (dropFirst entries' stack') := by
  cases hentries with
  | nil => exact hstack
  | cons hentry hrest => exact .cons (.discarding none (.cons hentry hrest)) hstack

theorem Closure.leftover_alike {f f' : Option Closure} (h : Option.Rel (Closure.Alike R) f f') :
    EntriesAlike R (leftover f) (leftover f') := by
  cases h with
  | none => exact .nil
  | some hclosure =>
      cases hclosure with
      | mk label argument hcaptured hcode => exact hcaptured

theorem Closure.Alike.activation {f f' : Closure} (h : f.Alike R f') (argument : Handle) :
    (f.activation argument).Alike R (f'.activation argument) := by
  cases h with
  | mk label slot hcaptured hcode =>
      exact .mk _ _ _ (.cons (.mk .body hcode (.cons (.slot _ _) hcaptured)) .nil)

/-! ## Slots -/

namespace Paired

variable {α β γ δ ε : Type} {r : β -> γ -> Prop}

theorem fst {p : α × β} {q : α × γ} (h : Paired r p q) : q.1 = p.1 := by
  cases h; rfl

theorem snd {p : α × β} {q : α × γ} (h : Paired r p q) : r p.2 q.2 := by
  cases h; assumption

theorem map {r' : δ -> ε -> Prop} {f : β -> δ} {g : γ -> ε}
    (hmap : forall {b c}, r b c -> r' (f b) (g c)) {o : Option (α × β)} {o' : Option (α × γ)}
    (h : Option.Rel (Paired r) o o') :
    Option.Rel (Paired r') (o.map fun x => (x.1, f x.2)) (o'.map fun x => (x.1, g x.2)) := by
  cases h with
  | none => exact .none
  | some hpair =>
      cases hpair with
      | mk a hrelated => exact .some (.mk a (hmap hrelated))

end Paired

theorem exchangeEntry_alike (name : SlotName) (h : Handle) {entries entries' : List Entry}
    (halike : EntriesAlike R entries entries') :
    Option.Rel (Paired (EntriesAlike R)) (exchangeEntry name h entries)
      (exchangeEntry name h entries') := by
  induction halike with
  | nil => exact .none
  | cons hentry hrest ih =>
      cases hentry with
      | slot n old =>
          simp only [exchangeEntry]
          split
          · exact .some (.mk _ (.cons (.slot _ _) hrest))
          · exact Paired.map (fun hfound => .cons (.slot _ _) hfound) ih
      | guard label honDrop => exact Paired.map (fun hfound => .cons (.guard _ honDrop) hfound) ih

theorem exchangeBlock_alike (name : SlotName) (h : Handle) {blocks blocks' : List Block}
    (halike : BlocksAlike R blocks blocks') :
    Option.Rel (Paired (BlocksAlike R)) (exchangeBlock name h blocks)
      (exchangeBlock name h blocks') := by
  induction halike with
  | nil => exact .none
  | cons hblock houter ih =>
      cases hblock with
      | @mk kind kind' code code' entries entries' hkind hcode hentries =>
          have hentry := exchangeEntry_alike name h hentries
          simp only [exchangeBlock]
          generalize exchangeEntry name h entries = found,
            exchangeEntry name h entries' = found' at hentry ⊢
          cases hentry with
          | none => exact Paired.map (fun hfound => .cons (.mk hkind hcode hentries) hfound) ih
          | some hfound =>
              cases hfound with
              | mk old hentries => exact .some (.mk old (.cons (.mk hkind hcode hentries) houter))

theorem declareEntry_alike {e e' : Entry} (hentry : e.Alike R e') {blocks blocks' : List Block}
    (h : BlocksAlike R blocks blocks') :
    Option.Rel (BlocksAlike R) (declareEntry e blocks) (declareEntry e' blocks') := by
  cases h with
  | nil => exact .none
  | cons hblock houter =>
      cases hblock with
      | mk hkind hcode hentries =>
          exact .some (.cons (.mk hkind hcode (.cons hentry hentries)) houter)

namespace Activation.Alike

variable {a a' : Activation}

theorem take (h : a.Alike R a') (name : SlotName) :
    Paired (Activation.Alike R) (a.take name) (a'.take name) := by
  cases h with
  | @mk label role blocks blocks' flow hblocks =>
      have hfound := exchangeBlock_alike name .empty hblocks
      simp only [Activation.take]
      generalize exchangeBlock name .empty blocks = found,
        exchangeBlock name .empty blocks' = found' at hfound ⊢
      cases hfound with
      | none => exact .mk _ (.mk _ _ _ hblocks)
      | some hpair =>
          cases hpair with
          | mk old hblocks => exact .mk _ (.mk _ _ _ hblocks)

theorem put (h : a.Alike R a') (name : SlotName) (handle : Handle) :
    Paired (Activation.Alike R) (a.put name handle) (a'.put name handle) := by
  cases h with
  | @mk label role blocks blocks' flow hblocks =>
      have hfound := exchangeBlock_alike name handle hblocks
      have hdeclared := declareEntry_alike (.slot name handle) hblocks
      simp only [Activation.put]
      generalize exchangeBlock name handle blocks = found,
        exchangeBlock name handle blocks' = found' at hfound ⊢
      cases hfound with
      | some hpair =>
          cases hpair with
          | mk old hblocks => exact .mk _ (.mk _ _ _ hblocks)
      | none =>
          generalize declareEntry (.slot name handle) blocks = declared,
            declareEntry (.slot name handle) blocks' = declared' at hdeclared ⊢
          cases hdeclared with
          | none => exact .mk _ (.mk _ _ _ hblocks)
          | some hblocks => exact .mk _ (.mk _ _ _ hblocks)

end Activation.Alike

namespace World.Alike

variable {w w' : World}

/-- Both logs have grown by the same entries. -/
theorem grown (h : w.Alike l l' w') : exists new, w.log = new ++ l ∧ w'.log = new ++ l' := by
  cases h with
  | on v => exact ⟨v.log, rfl, rfl⟩

theorem agrees (h : w.Alike l l' w') : w.Agrees w' := by
  cases h with
  | on v => rfl

theorem report (h : w.Alike l l' w') (e : LogEntry) : (w.report e).Alike l l' (w'.report e) := by
  cases h with
  | on v => exact .on (v.report e)

theorem trace (h : w.Alike l l' w') (e : TraceEvent) : (w.trace e).Alike l l' (w'.trace e) :=
  h.report _

theorem note (h : w.Alike l l' w') (label : String) (n : Note) :
    (w.note label n).Alike l l' (w'.note label n) :=
  h.report _

theorem setCell (h : w.Alike l l' w') (name : String) (value : UInt64) :
    (w.setCell name value).Alike l l' (w'.setCell name value) := by
  cases h with
  | on v => exact .on (v.setCell name value)

theorem addGuards (h : w.Alike l l' w') (n : Int) :
    Alike l l' { w with liveGuards := w.liveGuards + n }
      { w' with liveGuards := w'.liveGuards + n } := by
  cases h with
  | on v => exact .on { v with liveGuards := v.liveGuards + n }

theorem hosts (h : w.Alike l l' w') : w'.hosts = w.hosts := by
  cases h; rfl

theorem kindOf (h : w.Alike l l' w') (c : ContextId) : w'.kindOf c = w.kindOf c := by
  cases h; rfl

theorem globalNames (h : w.Alike l l' w') : w'.globalNames = w.globalNames := by
  cases h; rfl

theorem cell (h : w.Alike l l' w') (name : String) : w'.cell name = w.cell name := by
  cases h; rfl

theorem read (h : w.Alike l l' w') (source : CellSource) : w'.read source = w.read source := by
  cases h; cases source <;> rfl

theorem take (h : w.Alike l l' w') (name : String) :
    Paired (World.Alike l l') (w.take name) (w'.take name) := by
  cases h with
  | on v =>
      simp only [World.take, World.on]
      split
      · rename_i old globals hfound
        exact .mk old (.on { v with globals := globals })
      · exact .mk _ (.on v)

theorem put (h : w.Alike l l' w') (name : String) (handle : Handle) :
    Paired (World.Alike l l') (w.put name handle) (w'.put name handle) := by
  cases h with
  | on v =>
      simp only [World.put, World.on]
      split
      · rename_i old globals hfound
        exact .mk old (.on { v with globals := globals })
      · exact .mk _ (.on { v with globals := (name, handle) :: v.globals })

theorem askForStack (h : w.Alike l l' w') (name owner : Option String) (k : StackKind) :
    (w.askForStack name owner k).Alike l l' (w'.askForStack name owner k) := by
  cases owner with
  | none => exact (h.trace _).trace _
  | some label => exact ((h.trace _).trace _).report _

theorem returnStack (h : w.Alike l l' w') (owner : Option String) (k : StackKind) :
    (w.returnStack owner k).Alike l l' (w'.returnStack owner k) := by
  cases owner with
  | none => exact h
  | some label =>
      cases h with
      | on v => exact .on (v.returnStack (some label) k)

end World.Alike

namespace Scene.Alike

variable {s s' : Scene}

theorem world (h : s.Alike R l l' s') : s.world.Alike l l' s'.world := by
  cases h; assumption

theorem code (h : s.Alike R l l' s') : s.code.Alike R s'.code := by
  cases h; assumption

theorem label (h : s.Alike R l l' s') : s'.code.label = s.code.label := by
  cases h with
  | mk hworld hcode => cases hcode; rfl

theorem take (h : s.Alike R l l' s') (slot : SlotName) :
    Paired (Scene.Alike R l l') (s.take slot) (s'.take slot) := by
  cases slot with
  | own name =>
      have htake := h.code.take (.own name)
      simp only [Scene.take, htake.fst]
      exact .mk _ (.mk h.world htake.snd)
  | shared name =>
      have htake := h.world.take name
      simp only [Scene.take, htake.fst]
      exact .mk _ (.mk htake.snd h.code)

theorem put (h : s.Alike R l l' s') (slot : SlotName) (handle : Handle) :
    Paired (Scene.Alike R l l') (s.put slot handle) (s'.put slot handle) := by
  cases slot with
  | own name =>
      have hput := h.code.put (.own name) handle
      simp only [Scene.put, hput.fst]
      exact .mk _ (.mk h.world hput.snd)
  | shared name =>
      have hput := h.world.put name handle
      simp only [Scene.put, hput.fst]
      exact .mk _ (.mk hput.snd h.code)

theorem look (h : s.Alike R l l' s') (slot : SlotName) :
    Paired (Scene.Alike R l l') (s.look slot) (s'.look slot) := by
  have htake := h.take slot
  have hput := htake.snd.put slot (s.take slot).1
  simp only [Scene.look, htake.fst]
  exact .mk _ hput.snd

theorem takeAll (h : s.Alike R l l' s') (slots : List SlotName) :
    Paired (Scene.Alike R l l') (s.takeAll slots) (s'.takeAll slots) := by
  induction slots generalizing s s' with
  | nil => exact .mk _ h
  | cons slot rest ih =>
      have htake := h.take slot
      have hothers := ih htake.snd
      simp only [Scene.takeAll, htake.fst, hothers.fst]
      exact .mk _ hothers.snd

theorem note (h : s.Alike R l l' s') (n : Note) : (s.note n).Alike R l l' (s'.note n) := by
  cases h with
  | mk hworld hcode =>
      cases hcode with
      | mk label role flow hblocks => exact .mk (hworld.note _ _) (.mk _ _ _ hblocks)

theorem declare (h : s.Alike R l l' s') {e e' : Entry} (hentry : e.Alike R e') :
    (s.declare e).Alike R l l' (s'.declare e') := by
  cases h with
  | mk hworld hcode =>
      cases hcode with
      | @mk label role blocks blocks' flow hblocks =>
          have hdeclared := declareEntry_alike hentry hblocks
          refine .mk hworld (.mk _ _ _ ?_)
          simp only
          generalize declareEntry e blocks = declared,
            declareEntry e' blocks' = declared' at hdeclared ⊢
          cases hdeclared with
          | none => exact hblocks
          | some hblocks => exact hblocks

theorem enter (h : s.Alike R l l' s') {kind kind' : BlockKind} {code code' : List Op}
    (hkind : kind.Alike R kind') (hcode : R code code') :
    (s.enter kind code).Alike R l l' (s'.enter kind' code') := by
  cases h with
  | mk hworld hactivation =>
      cases hactivation with
      | mk label role flow hblocks =>
          exact .mk hworld (.mk _ _ _ (.cons (.mk hkind hcode .nil) hblocks))

theorem flow (h : s.Alike R l l' s') (f : Flow) : (s.flow f).Alike R l l' (s'.flow f) := by
  cases h with
  | mk hworld hcode =>
      cases hcode with
      | mk label role flow hblocks => exact .mk hworld (.mk _ _ _ hblocks)

theorem defaultResult (h : s.Alike R l l' s') :
    Paired (Scene.Alike R l l') s.defaultResult s'.defaultResult := by
  cases h with
  | mk hworld hcode =>
      cases hcode with
      | mk label role flow hblocks =>
          have hscene := Scene.Alike.mk hworld (.mk label role flow hblocks)
          cases role with
          | called argument => exact hscene.take argument
          | program => exact .mk _ hscene
          | cleanup => exact .mk _ hscene

theorem capture (h : s.Alike R l l' s') (hnil : R [] []) (label : String) (argument : SlotName)
    (captures : List String) (moves : List SlotName) {code code' : List Op} (hcode : R code code') :
    Closure.Alike R (s.capture label argument captures moves code).1
        (s'.capture label argument captures moves code').1 ∧
      Scene.Alike R l l' (s.capture label argument captures moves code).2
        (s'.capture label argument captures moves code').2 := by
  have hmoves := Scene.Alike.takeAll (.mk (h.world.addGuards captures.length) h.code) moves
  simp only [Scene.capture, hmoves.fst]
  refine ⟨.mk _ _ (List.forall₂_reverse_iff.mpr (List.rel_append ?_ ?_)) hcode, hmoves.snd⟩
  · exact List.forall₂_map_left_iff.mpr (List.forall₂_map_right_iff.mpr
      (List.forall₂_same.mpr fun label _ => .guard label hnil))
  · exact List.forall₂_map_left_iff.mpr (List.forall₂_map_right_iff.mpr
      (List.forall₂_same.mpr fun entry _ => .slot _ _))

end Scene.Alike

end Fibers
