import Fibers.Proofs.Lending
import Fibers.Proofs.Probe.Insertion

/-!
# Questions leave no trace

A program with further questions does what it would do without them, as long as each of them finds
somebody to ask.  Its log is that of the program without them, but for what they note; and what they
are answered does not hang on what else has been asked before.
-/

namespace Fibers

/-! ## Runs side by side -/

/-- How a run has ended, if it has. -/
def Config.outcome? : Config -> Option Outcome
  | active _ => none
  | halted outcome _ => some outcome

/--
The new program has something to do that the old one has not: to ask something, or to run code that
is there for nothing but that.
-/
def State.Aside (s s' : State) : Prop :=
  (exists question slot, s.Inserts s' question slot) ∨ s.stack.length < s'.stack.length

/--
The run of a program beside that of the program with further questions, and the log of the latter
without what these have added, the latest entry first.  The old program waits whenever the new one
asks something further, which takes five steps, or runs code that is there for nothing but that.

Of several equal questions in a row the last ones count as the further ones.  Nothing hangs on this
choice: what one of them finds in the slot the others find there as well.
-/
inductive Program.Beside (p p' : Program) : Config -> Config -> List LogEntry -> Prop where
  | start : Beside p p' (.active p.start) (.active p'.start) []
  /-- Both take a step, and what the new one logs is kept. -/
  | both {s s' : State} {kept new : List LogEntry} :
      Beside p p' (.active s) (.active s') kept -> ¬ s.Aside s' ->
        s'.step.world.log = new ++ s'.world.log -> Beside p p' s.step s'.step (new ++ kept)
  /-- The new one asks something further, and what it logs is not kept. -/
  | question {s s' t' : State} {kept : List LogEntry} {question : Question} {slot : SlotName} :
      Beside p p' (.active s) (.active s') kept -> s.Inserts s' question slot ->
        Config.after 5 (.active s') = .active t' -> Beside p p' (.active s) (.active t') kept
  /-- The new one takes a step in code that is there for nothing but questions. -/
  | vain {s s' t' : State} {kept new : List LogEntry} :
      Beside p p' (.active s) (.active s') kept -> s.stack.length < s'.stack.length ->
        s'.operation? = none -> s'.step = .active t' -> t'.world.log = new ++ s'.world.log ->
          Beside p p' (.active s) (.active t') (new ++ kept)

/-- Whenever the new program asks something further, the slot holds a handle that is not empty. -/
def Program.AsksLive (p p' : Program) : Prop :=
  forall s s' kept question slot, p.Beside p' (.active s) (.active s') kept ->
    s.Inserts s' question slot -> s'.handleIn slot ≠ .empty

/-- Two runs are at the same point, with the same log but for what the questions have added. -/
structure Config.Agrees (c c' : Config) (kept : List LogEntry) : Prop where
  outcome : c'.outcome? = c.outcome?
  world : c.world.Agrees c'.world
  log : c.world.log = kept

/-- A run of a program ends in this way, with this world. -/
def Program.EndsWith (p : Program) (outcome : Outcome) (w : World) : Prop :=
  exists n, Config.after n (.active p.start) = .halted outcome w

/-- Running code asks one thing after another, each time of a context that is there. -/
inductive State.Asks (s : State) : State -> Prop where
  | nothing : Asks s s
  | more {t u : State} {question : Question} {slot : SlotName} :
      Asks s t -> t.operation? = some (.ask question slot) -> t.handleIn slot ≠ .empty ->
        Config.after 5 (.active t) = .active u -> Asks s u

/-- What further questions in a program come to. -/
structure Program.Unaffected (p p' : Program) : Prop where
  /-- Wherever the two runs are side by side, nothing but the log tells them apart. -/
  agrees {c c' : Config} {kept : List LogEntry} : p.Beside p' c c' kept -> c.Agrees c' kept
  /-- A further question is answered as the old program would have been, and that is all. -/
  answered {s s' : State} {kept : List LogEntry} {question : Question} {slot : SlotName} :
    p.Beside p' (.active s) (.active s') kept -> s.Inserts s' question slot ->
      exists target, s'.handleIn slot = .live target ∧
        Config.after 5 (.active s') = .active (s'.asked question target) ∧
          s'.answerTo question target = s.answerTo question target
  /-- The two runs stay side by side, for as long as they go on. -/
  together (n : Nat) : exists n' kept, n <= n' ∧
    p.Beside p' (Config.after n (.active p.start)) (Config.after n' (.active p'.start)) kept
  /-- Where the old run ends, the new one ends as well, and in the same way. -/
  ends {outcome : Outcome} {w : World} : p.EndsWith outcome w ->
    exists w', p'.EndsWith outcome w' ∧ w.Agrees w' ∧
      p.Beside p' (.halted outcome w) (.halted outcome w') w.log
  /-- Where the new run ends, the old one has ended, with what is kept of the log. -/
  ended {outcome : Outcome} {w' : World} : p'.EndsWith outcome w' ->
    exists kept, p.EndsWith outcome { w' with log := kept } ∧
      p.Beside p' (.halted outcome { w' with log := kept }) (.halted outcome w') kept
  /-- However much has been asked before, the answer is the same. -/
  repeated {past : List State} {s t : State} {question : Question} {slot : SlotName} :
    p'.Reaches past s -> s.Asks t -> t.operation? = some (.ask question slot) ->
      t.handleIn slot ≠ .empty ->
        exists target, t.handleIn slot = .live target ∧
          Config.after 5 (.active t) = .active (t.asked question target) ∧
            t.answerTo question target = s.answerTo question target

/-- A program ends in one way only. -/
theorem Program.EndsWith.unique {p : Program} {outcome : Outcome} {w w' : World}
    (h : p.EndsWith outcome w) (h' : p.EndsWith outcome w') : w = w' := by
  rcases h with ⟨n, hn⟩
  rcases h' with ⟨n', hn'⟩
  have hsum : Config.after (n + n') (.active p.start) = .halted outcome w := by
    rw [Config.after_add, hn, Config.after_halted]
  rw [Nat.add_comm, Config.after_add, hn', Config.after_halted] at hsum
  cases hsum
  rfl

theorem Program.EndsWith.of_outcome {p : Program} {n : Nat} {outcome : Outcome}
    (h : (Config.after n (.active p.start)).outcome? = some outcome) :
    p.EndsWith outcome (Config.after n (.active p.start)).world := by
  refine ⟨n, ?_⟩
  cases hafter : Config.after n (.active p.start) with
  | active s =>
      rw [hafter] at h
      cases h
  | halted outcome' w =>
      rw [hafter] at h
      cases h
      rfl

/-! ## How the two stand to each other -/

namespace Config.Follows

variable {l l' : List LogEntry} {c c' : Config}

theorem world (h : Config.Follows l l' c c') : c.world.Alike l l' c'.world := by
  cases h with
  | level halike =>
      cases halike with
      | active hstate => exact hstate.world
      | halted outcome hworld => exact hworld
  | behind hbehind =>
      cases hbehind with
      | mk hnear => exact hnear.world

/-- How two programs stand to each other does not hang on what is in their logs already. -/
theorem renewed (h : Config.Follows l l' c c') :
    Config.Follows c.world.log c'.world.log c c' := by
  have hworld := h.world.agrees.alike
  cases h with
  | level halike =>
      cases halike with
      | active hstate =>
          exact .level (.active
            ⟨⟨hstate.running, hstate.contexts, hworld⟩, hstate.stack, hstate.control⟩)
      | halted outcome _ => exact .level (.halted outcome hworld)
  | behind hbehind =>
      cases hbehind with
      | mk hnear hrun hrun' hstack hstack' hentries hbelow hvain =>
          exact .behind (.mk ⟨hnear.running, hnear.contexts, hworld⟩ hrun hrun' hstack hstack'
            hentries hbelow hvain)

theorem outcome (h : Config.Follows l l' c c') : c'.outcome? = c.outcome? := by
  cases h with
  | level halike => cases halike <;> rfl
  | behind hbehind => rfl

theorem near {s s' : State} (h : Config.Follows l l' (.active s) (.active s')) :
    s.Near AddsQuestions l l' s' := by
  cases h with
  | level halike =>
      cases halike with
      | active hstate => exact hstate.toNear
  | behind hbehind => exact hbehind.near

/-- Only code that is there for nothing but questions makes a stack longer. -/
theorem behind_of_longer {s s' : State} (h : Config.Follows l l' (.active s) (.active s'))
    (hlonger : s.stack.length < s'.stack.length) : s.Behind l l' s' := by
  cases h with
  | behind hbehind => exact hbehind
  | level halike =>
      cases halike with
      | active hstate => exact absurd hstate.stack.length_eq (Nat.ne_of_lt hlonger)

theorem alike_of_not_aside {s s' : State} (h : Config.Follows l l' (.active s) (.active s'))
    (hnot : ¬ s.Aside s') : s.Alike AddsQuestions l l' s' := by
  cases h with
  | behind hbehind => exact absurd (.inr hbehind.longer) hnot
  | level halike =>
      cases halike with
      | active hstate => exact hstate

/-- Where neither program has anything of its own to do, they go on together. -/
theorem step {s s' : State} (h : Config.Follows l l' (.active s) (.active s'))
    (hnot : ¬ s.Aside s') : Config.Follows s.world.log s'.world.log s.step s'.step :=
  (h.renewed.alike_of_not_aside hnot).follows fun question slot hinserts =>
    hnot (.inl ⟨question, slot, hinserts⟩)

theorem asked {s s' : State} {question : Question} {slot : SlotName}
    (h : Config.Follows l l' (.active s) (.active s')) (hinserts : s.Inserts s' question slot)
    (target : ContextId) :
    Config.Follows s.world.log (s'.asked question target).world.log (.active s)
      (.active (s'.asked question target)) := by
  cases h with
  | behind hbehind => exact .behind (hbehind.asked hinserts target)
  | level halike =>
      cases halike with
      | active hstate => exact .level (.active (hstate.asked hinserts target))

end Config.Follows

/-- The two programs start alike. -/
theorem Program.AddsQuestions.start {p p' : Program} (h : p.AddsQuestions p') :
    State.Alike Fibers.AddsQuestions [] [] p.start p'.start := by
  have hworld : p'.start.world = p.start.world := by simp only [Program.start, h.hosts]
  refine ⟨⟨rfl, .cons (.mk _ .nil) .nil, ?_⟩, ?_, .run⟩
  · rw [hworld]
    exact .on p.start.world
  · exact .cons (.code (.mk _ _ _ (.cons (.mk .body h.main .nil) .nil))) (.cons (.root _) .nil)

namespace Program.Beside

variable {p p' : Program} {c c' : Config} {s s' : State} {kept : List LogEntry}
  {question : Question} {slot : SlotName}

/-- The configurations side by side are those of the two runs. -/
theorem reached (h : p.Beside p' c c' kept) : exists n n',
    c = Config.after n (.active p.start) ∧ c' = Config.after n' (.active p'.start) := by
  induction h with
  | start => exact ⟨0, 0, rfl, rfl⟩
  | both hbefore hnot hlog ih =>
      rcases ih with ⟨n, n', hn, hn'⟩
      exact ⟨n + 1, n' + 1, by rw [Config.after_succ, <- hn]; rfl,
        by rw [Config.after_succ, <- hn']; rfl⟩
  | question hbefore hinserts hafter ih =>
      rcases ih with ⟨n, n', hn, hn'⟩
      exact ⟨n, n' + 5, hn, by rw [Config.after_add, <- hn', hafter]⟩
  | vain hbefore hlonger hidle hstep hlog ih =>
      rcases ih with ⟨n, n', hn, hn'⟩
      exact ⟨n, n' + 1, hn, by rw [Config.after_succ, <- hn']; exact hstep.symm⟩

end Program.Beside

/-- A question that finds somebody to ask is answered, and leaves all else as it was. -/
theorem Program.Reaches.asked {p : Program} {past : List State} {s : State} {question : Question}
    {slot : SlotName} (h : p.Reaches past s) (hop : s.operation? = some (.ask question slot))
    (hlive : s.handleIn slot ≠ .empty) :
    exists target, s.handleIn slot = .live target ∧
      Config.after 5 (.active s) = .active (s.asked question target) := by
  cases hhandle : s.handleIn slot with
  | empty => exact absurd hhandle hlive
  | live target => exact ⟨target, rfl, h.sound.bounce hop hhandle⟩

/-- Asking any number of questions changes no answer. -/
theorem State.Asks.answers {p : Program} {past : List State} {s t : State} (h : s.Asks t)
    (hreach : p.Reaches past s) :
    (exists past', p.Reaches past' t) ∧
      forall question c, t.answerTo question c = s.answerTo question c := by
  induction h with
  | nothing => exact ⟨⟨past, hreach⟩, fun question c => rfl⟩
  | more hbefore hop hlive hafter ih =>
      rcases ih with ⟨⟨past', hreach'⟩, hsame⟩
      rcases hreach'.asked hop hlive with ⟨target, -, hasked⟩
      cases hafter.symm.trans hasked
      have hn := Program.after_eq_active.mpr ⟨past', rfl, hreach'⟩
      have hnext := Config.after_add past'.length 5 (.active p.start)
      rw [hn, hasked] at hnext
      rcases Program.after_eq_active.mp hnext with ⟨later, -, hlater⟩
      exact ⟨⟨later, hlater⟩, fun question c =>
        (State.answerTo_asked _ _ _ _).trans (hsame question c)⟩

section

variable {p p' : Program} {c c' : Config} {s s' : State} {kept : List LogEntry}

theorem Program.Beside.reaches (h : p.Beside p' c (.active s') kept) :
    exists past, p'.Reaches past s' := by
  rcases h.reached with ⟨-, n', -, hn'⟩
  rcases Program.after_eq_active.mp hn'.symm with ⟨past, -, hreach⟩
  exact ⟨past, hreach⟩

variable (hadds : p.AddsQuestions p') (hlive : p.AsksLive p')

include hlive

/-- A further question is answered, and leaves all else as it was. -/
theorem Program.Beside.asked {question : Question} {slot : SlotName}
    (h : p.Beside p' (.active s) (.active s') kept) (hinserts : s.Inserts s' question slot) :
    exists target, s'.handleIn slot = .live target ∧
      Config.after 5 (.active s') = .active (s'.asked question target) := by
  rcases h.reaches with ⟨past, hreach⟩
  exact hreach.asked hinserts.1 (hlive _ _ _ _ _ h hinserts)

include hadds

theorem Program.Beside.follows (h : p.Beside p' c c' kept) :
    (exists l l', Config.Follows l l' c c') ∧ c.world.log = kept := by
  induction h with
  | start => exact ⟨⟨[], [], .level (.active hadds.start)⟩, rfl⟩
  | both hbefore hnot hlog ih =>
      rcases ih with ⟨⟨l, l', hfollows⟩, hkept⟩
      have hnext := hfollows.step hnot
      -- Both logs grow by the same entries, so those that are kept are those of the old run.
      rcases hnext.world.grown with ⟨new, hold, hnew⟩
      cases List.append_cancel_right (hlog.symm.trans hnew)
      exact ⟨⟨_, _, hnext⟩, by rw [hold]; exact congrArg _ hkept⟩
  | question hbefore hinserts hafter ih =>
      rcases ih with ⟨⟨l, l', hfollows⟩, hkept⟩
      rcases hbefore.asked hlive hinserts with ⟨target, -, hasked⟩
      cases hafter.symm.trans hasked
      exact ⟨⟨_, _, hfollows.asked hinserts target⟩, hkept⟩
  | vain hbefore hlonger hidle hstep hlog ih =>
      rcases ih with ⟨⟨l, l', hfollows⟩, hkept⟩
      rcases (hfollows.behind_of_longer hlonger).ends hidle with ⟨t', hstep', hworld, -, hnext⟩
      cases hstep.symm.trans hstep'
      rw [hworld] at hlog
      cases List.self_eq_append_left.mp hlog
      exact ⟨⟨_, _, hnext⟩, hkept⟩

theorem Program.Beside.agrees (h : p.Beside p' c c' kept) : c.Agrees c' kept := by
  rcases h.follows hadds hlive with ⟨⟨l, l', hfollows⟩, hkept⟩
  exact ⟨hfollows.outcome, hfollows.world.agrees, hkept⟩

/-- What the new program has to do and the old one has not gets less. -/
theorem Program.Beside.works (h : p.Beside p' (.active s) (.active s') kept)
    (haside : s.Aside s') :
    exists k t' kept', Config.after k (.active s') = .active t' ∧
      p.Beside p' (.active s) (.active t') kept' ∧ t'.left < s'.left := by
  rcases h.follows hadds hlive with ⟨⟨l, l', hfollows⟩, -⟩
  have hasking : forall question slot, s.Inserts s' question slot ->
      exists k t' kept', Config.after k (.active s') = .active t' ∧
        p.Beside p' (.active s) (.active t') kept' ∧ t'.left < s'.left := by
    intro question slot hinserts
    rcases h.asked hlive hinserts with ⟨target, -, hafter⟩
    exact ⟨5, _, kept, hafter, .question h hinserts hafter, State.left_asked hinserts.1 target⟩
  rcases haside with ⟨question, slot, hinserts⟩ | hlonger
  · exact hasking question slot hinserts
  · have hbehind := hfollows.behind_of_longer hlonger
    cases hop : s'.operation? with
    | some op =>
        rcases hbehind.asks hop with ⟨question, slot, hinserts⟩
        exact hasking question slot hinserts
    | none =>
        rcases hbehind.ends hop with ⟨t', hstep, hworld, hless, -⟩
        exact ⟨1, t', [] ++ kept, hstep, .vain h hlonger hop hstep (by rw [hworld]; rfl), hless⟩

/-- At some point the new program has nothing to do that the old one has not. -/
theorem Program.Beside.catches_up {m : Nat} (h : p.Beside p' (.active s) (.active s') kept)
    (hafter : Config.after m (.active p'.start) = .active s') :
    exists m' t' kept', m <= m' ∧ Config.after m' (.active p'.start) = .active t' ∧
      p.Beside p' (.active s) (.active t') kept' ∧ ¬ s.Aside t' := by
  -- The new program asks what is left to be asked, one question after another.
  generalize hleft : s'.left = left
  induction left using Nat.strongRecOn generalizing m s' kept with
  | ind left ih =>
      by_cases haside : s.Aside s'
      · rcases h.works hadds hlive haside with ⟨k, t', kept', hk, hbeside, hless⟩
        rcases ih _ (hleft ▸ hless) hbeside (by rw [Config.after_add, hafter, hk]) rfl with
          ⟨m', u', kept'', hm, hrest⟩
        exact ⟨m', u', kept'', Nat.le_trans (Nat.le_add_right m k) hm, hrest⟩
      · exact ⟨m, s', kept, Nat.le_refl m, hafter, h, haside⟩

/-- From any point on, the runs stay side by side for one more step of the old one. -/
theorem Program.Beside.goes_on {m : Nat} (h : p.Beside p' c c' kept)
    (hafter : Config.after m (.active p'.start) = c') :
    exists m' kept', m < m' ∧
      p.Beside p' c.next (Config.after m' (.active p'.start)) kept' := by
  have houtcome := (h.agrees hadds hlive).outcome
  cases c with
  | halted outcome w =>
      cases c' with
      | active s' => cases houtcome
      | halted outcome' w' =>
          refine ⟨m + 1, kept, Nat.lt_succ_self m, ?_⟩
          rw [Config.after_succ, hafter]
          exact h
  | active s =>
      cases c' with
      | halted outcome' w' => cases houtcome
      | active s' =>
          rcases h.catches_up hadds hlive hafter with ⟨m', t', kept', hm, hafter', hbeside, hnot⟩
          rcases (hbeside.follows hadds hlive).1 with ⟨l, l', hfollows⟩
          rcases (hfollows.step hnot).world.grown with ⟨new, -, hnew⟩
          refine ⟨m' + 1, new ++ kept', Nat.lt_succ_of_le hm, ?_⟩
          rw [Config.after_succ, hafter']
          exact .both hbeside hnot hnew

/-- The new run comes by all that the old one does. -/
theorem Program.beside_of_after (n : Nat) : exists n' kept, n <= n' ∧
    p.Beside p' (Config.after n (.active p.start)) (Config.after n' (.active p'.start)) kept := by
  induction n with
  | zero => exact ⟨0, [], Nat.le_refl 0, .start⟩
  | succ n ih =>
      rcases ih with ⟨n', kept, hn, hbeside⟩
      rcases hbeside.goes_on hadds hlive rfl with ⟨m', kept', hm, hnext⟩
      rw [<- Config.after_succ] at hnext
      exact ⟨m', kept', Nat.lt_of_le_of_lt hn hm, hnext⟩

theorem Program.EndsWith.of_adds {outcome : Outcome} {w : World} (h : p.EndsWith outcome w) :
    exists w', p'.EndsWith outcome w' ∧ w.Agrees w' ∧
      p.Beside p' (.halted outcome w) (.halted outcome w') w.log := by
  rcases h with ⟨n, hn⟩
  rcases Program.beside_of_after hadds hlive n with ⟨n', kept, -, hbeside⟩
  rw [hn] at hbeside
  have hagrees := hbeside.agrees hadds hlive
  cases hnew : Config.after n' (.active p'.start) with
  | active s' =>
      rw [hnew] at hagrees
      cases hagrees.outcome
  | halted outcome' w' =>
      rw [hnew] at hagrees hbeside
      cases hagrees.outcome
      cases hagrees.log
      exact ⟨w', ⟨n', hnew⟩, hagrees.world, hbeside⟩

theorem Program.EndsWith.without {outcome : Outcome} {w' : World} (h : p'.EndsWith outcome w') :
    exists kept, p.EndsWith outcome { w' with log := kept } ∧
      p.Beside p' (.halted outcome { w' with log := kept }) (.halted outcome w') kept := by
  rcases h with ⟨m, hm⟩
  rcases Program.beside_of_after hadds hlive m with ⟨n', kept, hn, hbeside⟩
  have hend : Config.after n' (.active p'.start) = .halted outcome w' := by
    rw [<- Nat.add_sub_of_le hn, Config.after_add, hm, Config.after_halted]
  rw [hend] at hbeside
  have hagrees := hbeside.agrees hadds hlive
  cases hold : Config.after m (.active p.start) with
  | active s =>
      rw [hold] at hagrees
      cases hagrees.outcome
  | halted outcome' w =>
      rw [hold] at hagrees hbeside
      cases hagrees.outcome
      have hworld : w' = { w with log := w'.log } := hagrees.world
      have hlog : w.log = kept := hagrees.log
      have hw : { w' with log := kept } = w := by rw [hworld, <- hlog]
      refine ⟨kept, ⟨m, ?_⟩, ?_⟩
      · rw [hw, hold]
      · rw [hw]
        exact hbeside

end

/--
A program does what it would do without some of its questions, if each of these finds somebody to
ask: it ends in the same way, with the same guards and stacks, and its log is the same but for what
these questions add to it.  No question changes an answer.
-/
theorem probes_transparent {p p' : Program} (hadds : p.AddsQuestions p') (hlive : p.AsksLive p') :
    p.Unaffected p' where
  agrees h := h.agrees hadds hlive
  answered h hinserts := by
    rcases h.asked hlive hinserts with ⟨target, hhandle, hafter⟩
    rcases (h.follows hadds hlive).1 with ⟨l, l', hfollows⟩
    exact ⟨target, hhandle, hafter, hfollows.near.answerTo target⟩
  together := Program.beside_of_after hadds hlive
  ends h := h.of_adds hadds hlive
  ended h := h.without hadds hlive
  repeated hreach hasks hop hhandle := by
    rcases hasks.answers hreach with ⟨⟨past', hreach'⟩, hsame⟩
    rcases hreach'.asked hop hhandle with ⟨target, htarget, hafter⟩
    exact ⟨target, htarget, hafter, hsame _ _⟩

/-! ## A program with questions -/

/-- Whether all that is asked in a run of at most so many steps finds somebody to ask. -/
def Config.asksLive : Nat -> Config -> Bool
  | _, .halted _ _ => true
  | 0, .active _ => false
  | n + 1, .active s =>
      (match s.operation? with
        | some (.ask _ slot) => !(s.handleIn slot).isEmpty
        | _ => true) && asksLive n s.step

theorem Config.asksLive_after {n m : Nat} {c : Config} {s : State} {question : Question}
    {slot : SlotName} (h : c.asksLive n) (hafter : Config.after m c = .active s)
    (hop : s.operation? = some (.ask question slot)) : s.handleIn slot ≠ .empty := by
  induction m generalizing n c with
  | zero =>
      cases hafter
      cases n with
      | zero => cases h
      | succ n =>
          intro hempty
          simp [asksLive, hop, hempty, Handle.isEmpty] at h
  | succ m ih =>
      cases c with
      | halted outcome w => cases hafter
      | active t =>
          cases n with
          | zero => cases h
          | succ n =>
              simp only [asksLive, Bool.and_eq_true] at h
              exact ih h.2 hafter

namespace Program

/-- It is enough to look at all that the new program asks. -/
theorem AsksLive.of_run {p p' : Program} {n : Nat} (h : Config.asksLive n (.active p'.start)) :
    p.AsksLive p' := by
  intro s s' kept question slot hbeside hinserts
  rcases hbeside.reached with ⟨-, n', -, hn'⟩
  exact Config.asksLive_after h hn'.symm hinserts.1

/-- A small program: it leaves a guard behind, and a fiber that has resumed it once. -/
def guardedVisit : Program where
  hosts := []
  main :=
    [.guard "m" [],
      .create ⟨.shared "f", "F", none, .heap "A" 4096⟩ [] []
        [.resume ⟨.own "caller", false, none, .own "caller", .keep⟩],
      .resume ⟨.shared "f", false, none, .shared "f", .keep⟩]

/--
The same program with questions: about the fiber before it has run, about the main program, and,
when the guard is dropped, about the fiber again.
-/
def questionedVisit : Program where
  hosts := []
  main :=
    [.guard "m" [.ask .affinity (.shared "f")],
      .create ⟨.shared "f", "F", none, .heap "A" 4096⟩ [] []
        [.ask .stackKind (.own "caller"),
          .resume ⟨.own "caller", false, none, .own "caller", .keep⟩],
      .ask (.canResume none) (.shared "f"),
      .resume ⟨.shared "f", false, none, .shared "f", .keep⟩]

theorem addsQuestions_visit : guardedVisit.AddsQuestions questionedVisit where
  hosts := rfl
  main :=
    .keep (.guard _ (.question _ _ .nil))
      (.keep (.create _ _ _ (.question _ _ (.refl _))) (.question _ _ (.refl _)))

theorem asksLive_visit : guardedVisit.AsksLive questionedVisit :=
  .of_run (n := 53) (by decide +kernel)

end Program

/-- Both programs finish, and the three questions have added two entries each to the log. -/
theorem probes_transparent_of_visit :
    exists w w', Program.guardedVisit.Unaffected Program.questionedVisit ∧
      Program.guardedVisit.EndsWith .finished w ∧ Program.questionedVisit.EndsWith .finished w' ∧
        w.Agrees w' ∧ w'.log.length = w.log.length + 6 := by
  have hunaffected := probes_transparent Program.addsQuestions_visit Program.asksLive_visit
  have hold := Program.EndsWith.of_outcome
    (by decide +kernel : (Config.after 35 (.active Program.guardedVisit.start)).outcome? =
      some .finished)
  have hnew := Program.EndsWith.of_outcome
    (by decide +kernel : (Config.after 53 (.active Program.questionedVisit.start)).outcome? =
      some .finished)
  rcases hunaffected.ends hold with ⟨w', hends, hagrees, -⟩
  cases hends.unique hnew
  exact ⟨_, _, hunaffected, hold, hnew, hagrees, by decide +kernel⟩

end Fibers
