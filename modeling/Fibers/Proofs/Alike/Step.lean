import Fibers.Proofs.Alike.Code

/-!
# Steps of states that differ in code

States that are alike take alike steps, as long as they come to the same operation when they take
one, and to a guard that does something in both or in neither.
-/

namespace Fibers

variable {R : List Op -> List Op -> Prop} {l l' : List LogEntry}

/-! ## Frames that go on by themselves -/

namespace State.Near

variable {s s' : State} {stack stack' below below' : List Frame} {a a' : Activation}

theorem runCall (h : s.Near R l l' s') {call call' : Call} (hcall : call.Alike R call')
    (hcode : a.Alike R a') (hbelow : StacksAlike R below below') :
    Config.Alike R l l' (s.runCall call a below) (s'.runCall call' a' below') := by
  have hscene := Scene.Alike.mk h.world hcode
  have hlabel : a'.label = a.label := hscene.label
  cases hcall with
  | failBuild cause =>
      simp only [State.runCall, hlabel]
      exact h.go ((h.world.trace _).note _ _) (.cons (.code hcode) hbelow)
  | refuse refusal slot onRefusal =>
      have hnoted := hscene.note (.refused refusal)
      cases onRefusal with
      | keep => exact h.store hnoted hbelow _ _
      | discard =>
          exact h.go hnoted.world
            (dropFirst_alike (Handle.entries_alike _) (.cons (.code hnoted.code) hbelow))
  | store pending note =>
      cases pending with
      | nil =>
          simp only [State.runCall, hlabel]
          cases note with
          | none => exact h.go h.world (.cons (.code hcode) hbelow)
          | some n => exact h.go (h.world.note _ _) (.cons (.code hcode) hbelow)
      | cons entry pending =>
          have hput := hscene.put entry.1 entry.2
          simp only [State.runCall, hput.fst]
          exact h.go hput.snd.world (dropFirst_alike (Handle.entries_alike _)
            (.cons (.calling (.store _ _) hput.snd.code) hbelow))
  | _ => exact h.stuck

theorem runRoot (h : s.Near R l l' s') (stage : RootStage) (hbelow : StacksAlike R below below') :
    Config.Alike R l l' (s.runRoot stage below) (s'.runRoot stage below') := by
  cases stage with
  | program => exact h.stuck
  | ending => exact h.go (h.world.report _) (.cons (.root _) hbelow)
  | draining roundsLeft names found panic =>
      cases names with
      | cons name names =>
          have htake := h.world.take name
          simp only [State.runRoot]
          generalize s.world.take name = taken, s'.world.take name = taken' at htake ⊢
          cases htake with
          | mk handle hworld =>
              cases handle with
              | empty => exact h.go hworld (.cons (.root _) hbelow)
              | live fiber =>
                  exact h.go hworld (.cons (.discarding _ (Handle.entries_alike _))
                    (.cons (.root _) hbelow))
      | nil =>
          have hnames : s'.world.globalNames = s.world.globalNames := h.world.globalNames
          simp only [State.runRoot, hnames]
          cases roundsLeft <;> cases found
          · exact .halted _ h.world
          · exact .halted _ h.world
          · exact .halted _ h.world
          · exact h.go h.world (.cons (.root _) hbelow)

theorem runBase (h : s.Near R l l' s') {stage stage' : FiberStage} (hstage : stage.Alike R stage')
    (hbelow : StacksAlike R below below') :
    Config.Alike R l l' (s.runBase stage below) (s'.runBase stage' below') := by
  cases hstage with
  | leaving lease ending =>
      exact h.transfer (h.world.trace _) (.cons (.base (.exited lease)) hbelow) _ .exit
  | _ => exact h.stuck

/-! ## Unwinding -/

theorem unwindCode (h : s.Near R l l' s') (hnil : R [] []) (cause : Unwind) (hcode : a.Alike R a')
    (hbelow : StacksAlike R below below') :
    Config.Alike R l l' (s.unwindCode cause a below) (s'.unwindCode cause a' below') := by
  cases hcode with
  | mk label role flow hblocks =>
      have hresult : EntriesAlike R flow.result.entries flow.result.entries :=
        Handle.entries_alike _
      simp only [State.unwindCode]
      generalize flow.result.entries = result at hresult ⊢
      cases hresult with
      | cons hentry hrest =>
          exact h.raise h.world _ (.cons hentry hrest) (.cons (.code (.mk _ _ _ hblocks)) hbelow)
      | nil =>
          cases hblocks with
          | nil => exact h.raise h.world _ .nil hbelow
          | cons hblock houter =>
              cases hblock with
              | mk hkind hops hentries =>
                  have hafter : StacksAlike R (.code ⟨label, role, _, .onward⟩ :: below)
                      (.code ⟨label, role, _, .onward⟩ :: below') :=
                    .cons (.code (.mk _ _ _ houter)) hbelow
                  cases hentries with
                  | cons hentry hrest =>
                      exact h.raise h.world _ (.cons hentry hrest)
                        (.cons (.code (.mk _ _ _ (.cons (.mk hkind hnil .nil) houter))) hbelow)
                  | nil =>
                      have hdown := h.raise h.world cause .nil hafter
                      cases hkind with
                      | body => exact hdown
                      | scope => exact hdown
                      | rounds left hloop => exact hdown
                      | whileLive slot left hloop => exact hdown
                      | attempt swallow =>
                          cases cause with
                          | panic payload =>
                              exact h.go (h.world.note label (.caught payload.message)) hafter
                          | forced requester =>
                              cases swallow with
                              | true => exact h.go (h.world.note _ _) hafter
                              | false => exact h.raise (h.world.note _ _) _ .nil hafter

theorem unwindInto (h : s.Near R l l' s') (hnil : R [] []) (cause : Unwind)
    {stack stack' : List Frame} (hstack : StacksAlike R stack stack') :
    Config.Alike R l l' (s.unwindInto cause stack) (s'.unwindInto cause stack') := by
  cases hstack with
  | nil => exact h.stuck
  | cons hframe hbelow =>
      cases hframe with
      | code hcode => exact h.unwindCode hnil cause hcode hbelow
      | dropping => exact h.stuck
      | calling hcall hcode =>
          have hdown := List.Forall₂.cons (Frame.Alike.code hcode) hbelow
          cases hcall with
          | failBuild error => exact h.raise (h.world.trace _) _ .nil hdown
          | refuse refusal slot onRefusal =>
              exact h.raise h.world _ (Handle.entries_alike _) hdown
          | store pending note =>
              refine h.raise h.world _ ?_ hdown
              induction pending with
              | nil => exact .nil
              | cons entry rest ih => exact List.rel_append (Handle.entries_alike _) ih
          | _ => exact h.stuck
      | discarding earlier hentries =>
          cases earlier with
          | none => exact h.raise h.world _ hentries hbelow
          | some earlier => exact .halted _ h.world
      | onTop source =>
          cases cause with
          | panic payload => exact h.breach _
          | forced requester =>
              exact .active ⟨⟨h.running, h.contexts, h.world⟩, hbelow, .landed _ (.message _)⟩
      | base hstage =>
          cases hstage with
          | leaving lease ending => exact .halted _ h.world
          | busy lease =>
              cases cause with
              | panic payload => exact h.breach _
              | forced requester => exact h.go h.world (.cons (.base (.leaving _ _)) hbelow)
          | _ => exact h.stuck
      | root stage =>
          cases cause with
          | panic payload => exact h.go h.world (.cons (.root _) hbelow)
          | forced requester => exact h.stuck

/-- Entries are dropped alike, as long as a guard does something in both states or in neither. -/
theorem runDiscarding (h : s.Near R l l' s') (hnil : R [] []) {entries entries' : List Entry}
    (hentries : EntriesAlike R entries entries') (cause : Option Unwind)
    (hbelow : StacksAlike R below below')
    (hguard : forall {label onDrop onDrop' rest rest'}, entries = .guard label onDrop :: rest ->
      entries' = .guard label onDrop' :: rest' -> (onDrop = [] <-> onDrop' = [])) :
    Config.Alike R l l' (s.runDiscarding entries cause below)
      (s'.runDiscarding entries' cause below') := by
  cases hentries with
  | nil =>
      cases cause with
      | none => exact h.go h.world hbelow
      | some cause => exact h.unwindInto hnil cause hbelow
  | cons hentry hrest =>
      have hdown := List.Forall₂.cons (Frame.Alike.discarding cause hrest) hbelow
      cases hentry with
      | slot name handle =>
          cases handle with
          | empty => exact h.go h.world hdown
          | live fiber =>
              exact h.transfer (h.world.trace _) (.cons .dropping hdown) _ (.message _)
      | @guard label onDrop onDrop' honDrop =>
          have hsame := hguard rfl rfl
          simp only [State.runDiscarding, h.kind]
          have hworld := (h.world.addGuards (-1)).report (.dropped label s.kind)
          cases onDrop with
          | nil =>
              cases hsame.mp rfl
              exact h.go hworld hdown
          | cons op rest =>
              cases onDrop' with
              | nil => cases hsame.mpr rfl
              | cons op' rest' =>
                  exact h.go hworld (.cons (.code (.mk _ _ _ (.cons (.mk .body honDrop .nil) .nil)))
                    hdown)

end State.Near

/-! ## What is next -/

namespace State.Alike

variable {s s' : State}

theorem runs (h : s.Alike R l l' s') : s'.control = .run <-> s.control = .run := by
  have hcontrol := h.control
  generalize s.control = control, s'.control = control' at hcontrol ⊢
  cases hcontrol with
  | run => exact Iff.rfl
  | landed source hsignal => exact ⟨nofun, nofun⟩

/-- Code that runs in both states is related. -/
theorem code_of_blocks (h : s.Alike R l l' s') {a a' : Activation}
    {below below' : List Frame} {b b' : Block} {outer outer' : List Block}
    (hstack : s.stack = .code a :: below) (hstack' : s'.stack = .code a' :: below')
    (hblocks : a.blocks = b :: outer) (hblocks' : a'.blocks = b' :: outer') :
    a'.flow = a.flow ∧ R b.code b'.code := by
  have halike := h.stack
  rw [hstack, hstack'] at halike
  cases halike with
  | cons hframe hbelow =>
      cases hframe with
      | code hcode =>
          cases hcode with
          | mk label role flow hrelated =>
              cases hblocks
              cases hblocks'
              cases hrelated with
              | cons hblock houter =>
                  cases hblock with
                  | mk hkind hops hentries => exact ⟨rfl, hops⟩

/-- What a guard does in both states is related. -/
theorem code_of_guard (h : s.Alike R l l' s') {label : String}
    {onDrop onDrop' : List Op} {rest rest' : List Entry} {cause : Option Unwind}
    {below below' : List Frame}
    (hstack : s.stack = .discarding (.guard label onDrop :: rest) cause :: below)
    (hstack' : s'.stack = .discarding (.guard label onDrop' :: rest') cause :: below') :
    R onDrop onDrop' ∧ EntriesAlike R rest rest' ∧
      StacksAlike R below below' := by
  have halike := h.stack
  rw [hstack, hstack'] at halike
  cases halike with
  | cons hframe hbelow =>
      cases hframe with
      | discarding cause hentries =>
          cases hentries with
          | cons hentry hrest =>
              cases hentry with
              | guard label honDrop => exact ⟨honDrop, hrest, hbelow⟩

end State.Alike

/-! ## Steps -/

/-- What two states that are alike have to agree on to go on alike. -/
structure State.InStep (R : List Op -> List Op -> Prop) (s s' : State) : Prop where
  code {a a' : Activation} {below below' : List Frame} {b b' : Block} {outer outer' : List Block} :
    s.stack = .code a :: below -> s'.stack = .code a' :: below' -> a.flow = .onward ->
      a.blocks = b :: outer -> a'.blocks = b' :: outer' -> Next R b.code b'.code
  guard {label : String} {onDrop onDrop' : List Op} {rest rest' : List Entry}
      {cause : Option Unwind} {below below' : List Frame} :
    s.stack = .discarding (.guard label onDrop :: rest) cause :: below ->
      s'.stack = .discarding (.guard label onDrop' :: rest') cause :: below' ->
        (onDrop = [] <-> onDrop' = [])

theorem State.Alike.run {s s' : State} (h : s.Alike R l l' s') (hR : Composes R)
    (hsteps : s.InStep R s') : Config.Alike R l l' s.run s'.run := by
  have hstack := h.stack
  have hcode := @hsteps.code
  have hguard := @hsteps.guard
  simp only [State.run]
  generalize s.stack = stack, s'.stack = stack' at hstack hcode hguard ⊢
  cases hstack with
  | nil => exact h.stuck
  | cons hframe hbelow =>
      cases hframe with
      | code halike => exact h.runCode hR halike hbelow (hcode rfl rfl)
      | calling hcall halike => exact h.runCall hcall halike hbelow
      | discarding cause hentries =>
          refine h.runDiscarding hR.nil hentries cause hbelow ?_
          rintro label onDrop onDrop' rest rest' rfl rfl
          exact hguard rfl rfl
      | base hstage => exact h.runBase hstage hbelow
      | root stage => exact h.runRoot stage hbelow
      | _ => exact h.stuck

theorem State.Alike.step {s s' : State} (h : s.Alike R l l' s') (hR : Composes R)
    (hsteps : s.control = .run -> s.InStep R s') : Config.Alike R l l' s.step s'.step := by
  have hcontrol := h.control
  simp only [State.step]
  generalize s.control = control, s'.control = control' at hsteps hcontrol ⊢
  cases hcontrol with
  | run => exact h.run hR (hsteps rfl)
  | landed source hsignal => exact h.land source hsignal

end Fibers
