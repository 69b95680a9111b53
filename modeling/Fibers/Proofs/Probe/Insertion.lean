import Fibers.Proofs.Alike.Step
import Fibers.Proofs.Probe.Bounce

/-!
# Further questions

A program may get further questions, at any places in its code.  The two states that the old and the
new program come to are alike, until the new one is about to ask something that the old one is not.
One thing more can set them apart: a guard that did nothing when it was dropped may now have
something to ask, and so some code of its own to run.
-/

namespace Fibers

/-! ## Code -/

/-- Code, and the same code with further questions in it, inside its operations as well. -/
inductive AddsQuestions : List Op -> List Op -> Prop where
  | nil : AddsQuestions [] []
  | keep {op op' : Op} {rest rest' : List Op} :
      Op.Alike AddsQuestions op op' -> AddsQuestions rest rest' ->
        AddsQuestions (op :: rest) (op' :: rest')
  | question (question : Question) (slot : SlotName) {code rest' : List Op} :
      AddsQuestions code rest' -> AddsQuestions code (.ask question slot :: rest')

mutual

theorem Op.Alike.refl : forall op : Op, Op.Alike AddsQuestions op op
  | .create fiber captures moves body => .create fiber captures moves (AddsQuestions.refl body)
  | .resumeWith switch captures moves onTop =>
      .resumeWith switch captures moves (AddsQuestions.refl onTop)
  | .guard label onDrop => .guard label (AddsQuestions.refl onDrop)
  | .scope ops => .scope (AddsQuestions.refl ops)
  | .rounds count ops => .rounds count (AddsQuestions.refl ops)
  | .whileLive slot limit ops => .whileLive slot limit (AddsQuestions.refl ops)
  | .ifEmpty slot yes no => .ifEmpty slot (AddsQuestions.refl yes) (AddsQuestions.refl no)
  | .ifCell cell atLeast yes no =>
      .ifCell cell atLeast (AddsQuestions.refl yes) (AddsQuestions.refl no)
  | .attempt swallow ops => .attempt swallow (AddsQuestions.refl ops)
  | .resume _ | .ask _ _ | .drop _ | .move _ _ | .isEmpty _ | .display _ | .debug _ | .compare _ _
  | .collect _ | .leaveLoop | .giveBack _ | .panic _ | .say _ | .whereAmI | .setCell _ _
  | .addCell _ _ | .printCell _ | .compareHosts _ _ | .checkAffinity _ _ | .currentHost
  | .defaultAffinity | .describeStacks _ => .plain rfl

/-- There may be no further questions at all. -/
theorem AddsQuestions.refl : forall code : List Op, AddsQuestions code code
  | [] => .nil
  | op :: rest => .keep (Op.Alike.refl op) (AddsQuestions.refl rest)

end

namespace AddsQuestions

variable {code code' rest rest' : List Op} {question : Question} {slot : SlotName}

theorem append (h : AddsQuestions code code') (hrest : AddsQuestions rest rest') :
    AddsQuestions (code ++ rest) (code' ++ rest') := by
  induction code' generalizing code with
  | nil =>
      cases h
      exact hrest
  | cons op' code' ih =>
      cases h with
      | keep hop hcode => exact .keep hop (ih hcode)
      | question question slot hcode => exact .question question slot (ih hcode)

theorem composes : Composes AddsQuestions := ⟨.nil, append⟩

/-- A question that stands in both may as well be taken for a further one. -/
theorem of_ask (h : AddsQuestions (.ask question slot :: code) code') :
    AddsQuestions code code' := by
  induction code' with
  | nil => cases h
  | cons op' rest' ih =>
      cases h with
      | keep hop hcode =>
          cases hop
          exact .question question slot hcode
      | question question slot hcode => exact .question question slot (ih hcode)

/-- A question that the old code does not come to is a further one. -/
theorem of_further (h : AddsQuestions code (.ask question slot :: rest'))
    (hfurther : code.head? ≠ some (.ask question slot)) : AddsQuestions code rest' := by
  cases h with
  | keep hop hcode =>
      cases hop
      exact absurd rfl hfurther
  | question question slot hcode => exact hcode

/-- Where the new code does not come to a further question, it comes to what the old code does. -/
theorem next (h : AddsQuestions code code')
    (hsame : forall question slot, code'.head? = some (.ask question slot) ->
      code.head? = some (.ask question slot)) : Next AddsQuestions code code' := by
  cases h with
  | nil => exact .done
  | keep hop hcode => exact .op hop hcode
  | question question slot hcode =>
      rcases List.head?_eq_some_iff.mp (hsame question slot rfl) with ⟨rest, rfl⟩
      exact .op (.plain rfl) hcode.of_ask

end AddsQuestions

/-- A program, and the same program with further questions in its code. -/
structure Program.AddsQuestions (p p' : Program) : Prop where
  hosts : p'.hosts = p.hosts
  main : Fibers.AddsQuestions p.main p'.main

/-! ## Guards that did nothing -/

/-- What runs when a guard is dropped that did nothing without the further questions. -/
inductive Activation.Vain : Activation -> Prop where
  | asking (label : String) {code : List Op} :
      AddsQuestions [] code -> Vain ⟨label, .cleanup, [⟨.body, code, []⟩], .onward⟩
  | ending (label : String) : Vain ⟨label, .cleanup, [⟨.body, [], []⟩], .returning .empty⟩
  | ended (label : String) : Vain ⟨label, .cleanup, [], .returning .empty⟩

/-- The new state is at a guard that did nothing, and the old one is past it. -/
inductive State.Behind (l l' : List LogEntry) : State -> State -> Prop where
  | mk {s s' : State} {a : Activation} {entries entries' : List Entry} {cause : Option Unwind}
      {below below' : List Frame} :
      State.Near AddsQuestions l l' s s' -> s.control = .run -> s'.control = .run ->
        s.stack = .discarding entries cause :: below ->
        s'.stack = .code a :: .discarding entries' cause :: below' ->
        EntriesAlike AddsQuestions entries entries' ->
        StacksAlike AddsQuestions below below' -> a.Vain -> Behind l l' s s'

/-- How the old program and the new one stand to each other. -/
inductive Config.Follows (l l' : List LogEntry) : Config -> Config -> Prop where
  | level {c c' : Config} : Config.Alike AddsQuestions l l' c c' -> Follows l l' c c'
  | behind {s s' : State} : s.Behind l l' s' -> Follows l l' (.active s) (.active s')

/-! ## Steps -/

/-- The new program is about to ask something that the old one is not. -/
def State.Inserts (s s' : State) (question : Question) (slot : SlotName) : Prop :=
  s'.operation? = some (.ask question slot) ∧ s.operation? ≠ some (.ask question slot)

/-- How much there is to do in some blocks, without what is inside of their operations. -/
def Block.leftIn : List Block -> Nat
  | [] => 0
  | b :: outer => b.code.length + 1 + leftIn outer

def Flow.left : Flow -> Nat
  | onward => 2
  | leavingLoop | returning _ => 1

/-- How much there is to do in the code that runs. -/
def State.left (s : State) : Nat :=
  match s.stack with
  | .code a :: _ => Block.leftIn a.blocks + a.flow.left
  | _ => 0

variable {s s' : State} {l l' : List LogEntry} {question : Question} {slot : SlotName}

namespace State.Alike

/-- A guard that did nothing asks something now. -/
theorem behind_of_guard (h : s.Alike AddsQuestions l l' s') (hrun : s.control = .run)
    {label : String} {op : Op} {ops : List Op} {rest rest' : List Entry} {cause : Option Unwind}
    {below below' : List Frame}
    (hstack : s.stack = .discarding (.guard label [] :: rest) cause :: below)
    (hstack' : s'.stack = .discarding (.guard label (op :: ops) :: rest') cause :: below') :
    Config.Follows l l' s.step s'.step := by
  rcases h.code_of_guard hstack hstack' with ⟨honDrop, hrest, hbelow⟩
  have hrun' := h.runs.mpr hrun
  have hworld := (h.world.addGuards (-1)).report (.dropped label s.kind)
  simp only [State.step, hrun, hrun', State.run, hstack, hstack', State.runDiscarding, h.kind]
  exact .behind (.mk ⟨h.running, h.contexts, hworld⟩ rfl rfl rfl rfl hrest hbelow
    (.asking _ honDrop))

/-- Two states that are alike go on alike, or the new one has come to a guard that did nothing. -/
theorem follows (h : s.Alike AddsQuestions l l' s')
    (hnot : forall question slot, ¬ s.Inserts s' question slot) :
    Config.Follows l l' s.step s'.step := by
  -- Code is looked at in two places: where its next operation is taken, and where a guard is
  -- dropped, which runs code only if there is any.  The states part at such a guard alone.
  by_cases hvain : s.control = .run ∧ exists label op ops rest rest' cause below below',
      s.stack = .discarding (.guard label [] :: rest) cause :: below ∧
        s'.stack = .discarding (.guard label (op :: ops) :: rest') cause :: below'
  · rcases hvain with ⟨hrun, label, op, ops, rest, rest', cause, below, below', hstack, hstack'⟩
    exact h.behind_of_guard hrun hstack hstack'
  · refine .level (h.step AddsQuestions.composes fun hrun => ⟨?_, ?_⟩)
    · intro a a' below below' b b' outer outer' hstack hstack' hflow hblocks hblocks'
      have hrun' := h.runs.mpr hrun
      rcases h.code_of_blocks hstack hstack' hblocks hblocks' with ⟨hsame, hcode⟩
      refine hcode.next fun question slot hask => ?_
      by_contra hfurther
      refine hnot question slot ⟨?_, ?_⟩
      · rwa [operation?_of_onward hrun' hstack' (hsame.trans hflow) hblocks']
      · rwa [operation?_of_onward hrun hstack hflow hblocks]
    · intro label onDrop onDrop' rest rest' cause below below' hstack hstack'
      have honDrop := (h.code_of_guard hstack hstack').1
      constructor
      · rintro rfl
        cases onDrop' with
        | nil => rfl
        | cons op ops =>
            exact absurd ⟨hrun, label, op, ops, rest, rest', cause, below, below', hstack, hstack'⟩
              hvain
      · rintro rfl
        cases honDrop
        rfl

end State.Alike

/-! ## Questions that are asked -/

theorem State.bindingIn_alike {stack stack' : List Frame}
    (h : StacksAlike AddsQuestions stack stack') : bindingIn stack' = bindingIn stack := by
  cases h with
  | nil => rfl
  | cons hframe hbelow =>
      cases hframe with
      | calling hcall hcode => cases hcall <;> rfl
      | _ => rfl

/-- What a context answers does not hang on code. -/
theorem State.Near.answerTo (h : s.Near AddsQuestions l l' s') (c : ContextId) :
    s'.answerTo question c = s.answerTo question c := by
  have hbinding : s'.bindingOf c = s.bindingOf c := by
    have hparked := h.parked c
    simp only [State.bindingOf]
    generalize s.parked? c = there, s'.parked? c = there' at hparked ⊢
    cases hparked with
    | none => rfl
    | some hstack => exact State.bindingIn_alike hstack
  cases question <;> simp only [State.answerTo, hbinding, h.world.hosts, h.world.kindOf]

/-- The new code is still the old one with questions in it when it is done with one of these. -/
theorem Activation.Alike.advance {a a' : Activation} (h : a.Alike AddsQuestions a') {b b' : Block}
    {outer outer' : List Block} {rest' : List Op} (hblocks : a.blocks = b :: outer)
    (hblocks' : a'.blocks = b' :: outer') (hcode' : b'.code = .ask question slot :: rest')
    (hfurther : b.code.head? ≠ some (.ask question slot)) : a.Alike AddsQuestions a'.advance := by
  cases h with
  | mk label role flow hrelated =>
      cases hblocks
      cases hblocks'
      cases hrelated with
      | cons hblock houter =>
          cases hblock with
          | mk hkind hops hentries =>
              cases hcode'
              exact .mk _ _ _ (.cons (.mk hkind (hops.of_further hfurther) hentries) houter)

/-- States that are alike are so when the new program has asked something further. -/
theorem State.Alike.asked (h : s.Alike AddsQuestions l l' s')
    (hinserts : s.Inserts s' question slot) (target : ContextId) :
    s.Alike AddsQuestions s.world.log (s'.asked question target).world.log
      (s'.asked question target) := by
  rcases State.operation?_eq_some hinserts.1 with
    ⟨a', below', b', outer', rest', hrun', hstack', hflow', hblocks', hcode'⟩
  have hworld : s.world.Agrees (((s'.world.trace (.probed target question.query)).note a'.label
      (s'.answerTo question target))) := (h.world.agrees.report _).report _
  have halike := h.stack
  rw [hstack'] at halike
  generalize hstack : s.stack = stack at halike
  cases halike with
  | cons hframe hbelow =>
      cases hframe with
      | code hcode =>
          cases hcode with
          | mk label role flow hrelated =>
              cases hblocks'
              cases hrelated with
              | @cons b _ outer _ hblock houter =>
                  have hfurther : b.code.head? ≠ some (.ask question slot) := by
                    rw [<- operation?_of_onward (h.runs.mp hrun') hstack hflow' rfl]
                    exact hinserts.2
                  have hadvance := Activation.Alike.advance
                    (.mk label role flow (.cons hblock houter)) rfl rfl hcode' hfurther
                  simp only [State.asked, hstack']
                  refine ⟨⟨h.running, h.contexts, hworld.alike⟩, ?_, h.control⟩
                  rw [hstack]
                  exact .cons (.code hadvance) hbelow

/-- There is less to do when something has been asked. -/
theorem State.left_asked (hop : s.operation? = some (.ask question slot)) (target : ContextId) :
    (s.asked question target).left < s.left := by
  rcases operation?_eq_some hop with ⟨a, below, b, outer, rest, -, hstack, hflow, hblocks, hcode⟩
  simp only [left, asked, hstack, Activation.advance, hblocks, hcode, Block.leftIn, List.tail_cons,
    List.length_cons]
  omega

namespace State.Behind

theorem near (h : s.Behind l l' s') : s.Near AddsQuestions l l' s' := by
  cases h with
  | mk hnear => exact hnear

theorem longer (h : s.Behind l l' s') : s.stack.length < s'.stack.length := by
  cases h with
  | mk hnear hrun hrun' hstack hstack' hentries hbelow hvain =>
      simp only [hstack, hstack', List.length_cons, hbelow.length_eq]
      exact Nat.lt_succ_self _

/-- What runs at a guard that did nothing asks something, if it has anything to do. -/
theorem asks (h : s.Behind l l' s') {op : Op} (hop : s'.operation? = some op) :
    exists question slot, s.Inserts s' question slot := by
  cases h with
  | mk hnear hrun hrun' hstack hstack' hentries hbelow hvain =>
      have hidle : s.operation? = none := by simp only [State.operation?, hrun, hstack]
      cases hvain with
      | asking label hcode =>
          have hhead := operation?_of_onward hrun' hstack' rfl rfl
          cases hcode with
          | nil => cases hop.symm.trans hhead
          | question question slot hrest =>
              exact ⟨question, slot, hhead, hidle ▸ (Option.some_ne_none _).symm⟩
      | ending label =>
          simp only [State.operation?, hrun', hstack', reduceCtorEq] at hop
      | ended label =>
          simp only [State.operation?, hrun', hstack', reduceCtorEq] at hop

theorem asked (h : s.Behind l l' s') (hinserts : s.Inserts s' question slot) (target : ContextId) :
    s.Behind s.world.log (s'.asked question target).world.log (s'.asked question target) := by
  cases h with
  | mk hnear hrun hrun' hstack hstack' hentries hbelow hvain =>
      have hop := hinserts.1
      cases hvain with
      | asking label hcode =>
          cases hcode with
          | nil => cases hop.symm.trans (operation?_of_onward hrun' hstack' rfl rfl)
          | question question' slot' hrest =>
              have hworld := (hnear.world.agrees.report
                (.traced (.probed target question.query))).report
                (.noted label (s'.answerTo question target))
              simp only [State.asked, hstack']
              exact .mk ⟨hnear.running, hnear.contexts, hworld.alike⟩ hrun hrun' hstack rfl hentries
                hbelow (.asking label hrest)
      | ending label =>
          simp only [State.operation?, hrun', hstack', reduceCtorEq] at hop
      | ended label =>
          simp only [State.operation?, hrun', hstack', reduceCtorEq] at hop

/-- What runs at a guard that did nothing comes to its end when it has asked all it has to. -/
theorem ends (h : s.Behind l l' s') (hop : s'.operation? = none) :
    exists t', s'.step = .active t' ∧ t'.world = s'.world ∧ t'.left < s'.left ∧
      Config.Follows l l' (.active s) (.active t') := by
  cases h with
  | @mk a entries entries' cause below below' hnear hrun hrun' hstack hstack' hentries hbelow
      hvain =>
      have hbehind : forall {a' : Activation}, a'.Vain -> State.Behind l l' s
          { s' with stack := .code a' :: .discarding entries' cause :: below', control := .run } :=
        fun hvain => .mk ⟨hnear.running, hnear.contexts, hnear.world⟩ hrun rfl hstack rfl hentries
          hbelow hvain
      cases hvain with
      | asking label hcode =>
          cases hcode with
          | question question slot hrest =>
              cases hop.symm.trans (operation?_of_onward hrun' hstack' rfl rfl)
          | nil =>
              have hleft : s'.left = 3 := by simp only [State.left, hstack']; rfl
              refine ⟨{ s' with stack := _, control := .run }, ?_, rfl, ?_,
                .behind (hbehind (.ending label))⟩
              · simp only [State.step, hrun', State.run, hstack']
                rfl
              · rw [hleft]
                exact Nat.lt_succ_self _
      | ending label =>
          have hleft : s'.left = 2 := by simp only [State.left, hstack']; rfl
          refine ⟨{ s' with stack := _, control := .run }, ?_, rfl, ?_,
            .behind (hbehind (.ended label))⟩
          · simp only [State.step, hrun', State.run, hstack']
            rfl
          · rw [hleft]
            exact Nat.lt_succ_self _
      | ended label =>
          have hleft : s'.left = 1 := by simp only [State.left, hstack']; rfl
          have halike : State.Alike AddsQuestions l l' s
              { s' with stack := .discarding entries' cause :: below', control := .run } := by
            refine ⟨⟨hnear.running, hnear.contexts, hnear.world⟩, ?_, ?_⟩
            · rw [hstack]
              exact .cons (.discarding cause hentries) hbelow
            · rw [hrun]
              exact .run
          refine ⟨{ s' with stack := _, control := .run }, ?_, rfl, ?_, .level (.active halike)⟩
          · simp only [State.step, hrun', State.run, hstack']
            rfl
          · rw [hleft]
            exact Nat.lt_succ_self _

end State.Behind

end Fibers
