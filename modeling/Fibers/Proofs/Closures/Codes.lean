import Fibers.Proofs.Closures.Occasions

/-!
# How code comes on a stack

There are two ways for code to come on a stack: a closure is called there, or a guard is dropped that
does something at its end.  All other steps leave on each stack the code that is there, or take away
what came there last.  So the code of closures that is on a stack was called there, each time anew.
-/

namespace Fibers

/-- What the code of a closure is known by once it runs. -/
def Closure.identity (f : Closure) : String × Role := (f.label, .called f.argument)

def Role.isCalled : Role -> Bool
  | called _ => true
  | program | cleanup => false

namespace State

variable {s s' : State} {lost : List ContextId} {k : Keeper} {f : Closure} {c : ContextId}
  {stack : List Frame}

/-- The code on the stack of a context, what came there last first. -/
def codes (s : State) (c : ContextId) : List (String × Role) := (s.stackOf c).elim [] codesOf

theorem codes_of_stackOf (h : s.stackOf c = some stack) : s.codes c = codesOf stack := by
  rw [codes, h]
  rfl

theorem codes_running : s.codes s.running = codesOf s.stack := codes_of_stackOf stackOf_running

/-! ## Steps -/

/-- Code comes on top of the running stack. -/
inductive Begins (s s' : State) : String × Role -> Prop where
  /-- A closure is called. -/
  | called {k : Keeper} {f : Closure} : s.Invokes k f -> s.Runs f s' k -> Begins s s' f.identity
  /-- A guard is dropped that does something at its end. -/
  | dropped {label : String} {onDrop : List Op} {rest : List Entry} {cause : Option Unwind}
      {below : List Frame} :
      s.control = .run -> s.stack = .discarding (.guard label onDrop :: rest) cause :: below ->
        s'.stack =
          .code (.ofCode .cleanup ("~" ++ label) onDrop) :: .discarding rest cause :: below ->
        Begins s s' ("~" ++ label, .cleanup)

/-- A step leaves the code on another context's stack as it is. -/
theorem Sound.codes_of_ne (h : s.Sound lost) (hstep : s.step = .active s') (hc : c ≠ s.running) :
    s'.codes c = s.codes c := by
  cases hstack' : s'.stackOf c with
  | none =>
      rw [codes, hstack']
      cases hstack : s.stackOf c with
      | none => rw [codes, hstack]
      | some stack =>
          rcases h.exited_of_gone hstep hstack hstack' with ⟨lease, rfl⟩
          rw [codes, hstack]
          rfl
  | some stack' =>
      rcases h.touches hstep hc hstack' with ⟨hnew, rfl, -⟩ | ⟨stack, hstack, htouches⟩
      · rw [codes, codes, hstack', hnew]
        rfl
      · rw [codes, codes, hstack', hstack]
        cases htouches with
        | none => rfl
        | reply => rfl
        | function => rfl

/-- A call puts the code of the closure on top of what was there. -/
theorem Sound.codes_of_invokes (h : s.Sound lost) (hstep : s.step = .active s')
    (hinvokes : s.Invokes k f) :
    s.Begins s' f.identity ∧ s'.codes s.running = f.identity :: s.codes s.running := by
  rcases h.runs_of_calls hinvokes with ⟨next, hnext, hrunning, -, hruns⟩
  cases hnext.symm.trans hstep
  refine ⟨.called hinvokes hruns, ?_⟩
  rw [<- hrunning, codes_running, hrunning, codes_running]
  cases hruns with
  | body hstack =>
      cases hinvokes with
      | body hcontrol hhandle hidle hbody =>
          rw [hstack, hidle]
          rfl
  | function hstack =>
      rw [hstack]
      rfl

/--
A step leaves the code on the running stack as it is, but for what is over, or it puts the code of a
closure there that is called, or of a guard that is dropped.
-/
theorem Sound.codes_running_step (h : s.Sound lost) (hstep : s.step = .active s') :
    s'.codes s.running <:+ s.codes s.running ∨
      exists code, s.Begins s' code ∧ s'.codes s.running = code :: s.codes s.running := by
  have hstands := h.stands
  have hshifts := s.shifts_step
  generalize hnext : s.step = next at hshifts
  have hsame := hnext.symm.trans hstep
  rw [codes_running]
  -- Most steps leave the running context with a stack that has no more code than it had.
  have hleft : forall {stack : List Frame}, s'.stackOf s.running = some stack ->
      codesOf stack <:+ codesOf s.stack -> s'.codes s.running <:+ codesOf s.stack :=
    fun hstack hcodes => codes_of_stackOf hstack ▸ hcodes
  have hparked : forall {w : World} {stack : List Frame} {target : ContextId} {signal : Signal},
      s.transfer w stack target signal = .active s' -> s'.stackOf s.running = some stack := by
    intro w stack target signal htransfer
    rw [h.stackOf_transfer htransfer, if_pos rfl]
  cases hshifts with
  | go hretains =>
      cases hsame
      exact Or.inl (hleft stackOf_running hretains.codes)
  | resume hretains | resumeWith hretains | probe hretains | abandon hretains =>
      exact Or.inl (hleft (hparked hsame) hretains.codes)
  | launch hop howner hretains =>
      have hne := ne_running_of_new h.listed (h.new_of_launch hnext hstep)
      have hwaiting := h.stackOf_launch hnext hstep hne.symm
      rw [if_pos rfl] at hwaiting
      exact Or.inl (hleft hwaiting hretains.codes)
  | exit hcontrol hbase | start hcontrol hbase =>
      refine Or.inl (hleft (hparked hsame) ?_)
      rw [hbase]
      exact List.suffix_rfl
  | give hcontrol hcode | giveNothing hcontrol hcode =>
      cases hsame
      refine Or.inl (hleft stackOf_running ?_)
      rw [hcode]
      exact List.suffix_cons _ _
  | redeliver hcontrol hunwind =>
      cases hsame
      refine Or.inl (hleft stackOf_running ?_)
      rw [hunwind]
      exact List.suffix_rfl
  | answer hcontrol =>
      exact Or.inl (hleft (h.stackOf_of_answer hcontrol hsame) List.suffix_rfl)
  | release hcontrol =>
      exact Or.inl (hleft (h.stackOf_of_release hcontrol hsame) List.suffix_rfl)
  | finish hcontrol hcode =>
      cases hsame
      refine Or.inl (hleft stackOf_running ?_)
      rw [hcode]
      exact List.suffix_cons _ _
  | unwound hcontrol hunwind =>
      cases hsame
      refine Or.inl (hleft stackOf_running ?_)
      rw [hunwind]
      exact List.suffix_rfl
  | evict hcontrol hbase =>
      rename_i requester record below
      cases hsame
      refine Or.inl (hleft stackOf_running ?_)
      rw [hbase]
      cases Closure.leftover record.body <;> exact List.suffix_rfl
  | cleanUp hcontrol hdrops =>
      cases hsame
      refine Or.inr ⟨_, .dropped hcontrol hdrops rfl, ?_⟩
      rw [hdrops]
      exact codes_running
  | dispatch hcontrol hhandle hbase hbody =>
      have hstacked := hstands.stacked
      rw [hbase] at hstacked
      rcases hstacked with ⟨-, -, rfl⟩ | ⟨heq, -⟩
      · rcases h.codes_of_invokes hstep (.body hcontrol hhandle hbase hbody) with ⟨hbegins, hcodes⟩
        exact Or.inr ⟨_, hbegins, hcodes.trans (congrArg _ codes_running)⟩
      · cases heq
  | call hcontrol =>
      rcases h.call hcontrol with ⟨host, f, target, a, below, hsource, -, -⟩
      rcases h.codes_of_invokes hstep (.function hcontrol hsource) with ⟨hbegins, hcodes⟩
      exact Or.inr ⟨_, hbegins, hcodes.trans (congrArg _ codes_running)⟩
  | halt => cases hsame

/-- Code comes on a stack only where a closure is called, or a guard is dropped. -/
theorem Sound.codes_step (h : s.Sound lost) (hstep : s.step = .active s') (c : ContextId) :
    s'.codes c <:+ s.codes c ∨
      c = s.running ∧ exists code, s.Begins s' code ∧ s'.codes c = code :: s.codes c := by
  by_cases hc : c = s.running
  · subst hc
    rcases h.codes_running_step hstep with hleft | hbegins
    · exact Or.inl hleft
    · exact Or.inr ⟨rfl, hbegins⟩
  · rw [h.codes_of_ne hstep hc]
    exact Or.inl List.suffix_rfl

/-! ## Whole runs -/

/-- The code of closures on the stack of a context, what was called last first. -/
def callees (s : State) (c : ContextId) : List (String × Role) :=
  (s.codes c).filter fun code => code.2.isCalled

end State

/-- The closures that were called on a context in the given states, the latest first. -/
def calledOn (c : ContextId) (past : List State) : List (String × Role) :=
  past.flatMap fun t => if t.running = c then (t.called?.map (·.2.identity)).toList else []

namespace Program.Reaches

variable {p : Program} {past : List State} {s : State}

/-- All code of closures that is on a stack was called there, each time anew. -/
theorem called (h : p.Reaches past s) (c : ContextId) :
    (s.callees c).Sublist (calledOn c past) := by
  induction h with
  | start =>
      have hnone : p.start.callees c = [] := by
        by_cases hc : c = mainContext
        · subst hc
          rfl
        · have hstack : p.start.stackOf c = none := by
            rw [State.stackOf_of_ne hc, State.parked?]
            simp [Program.start, hc]
          rw [State.callees, State.codes, hstack]
          rfl
      rw [hnone]
      exact List.nil_sublist _
  | step hbefore hstep ih =>
      rename_i past t s
      rw [calledOn, List.flatMap_cons]
      rcases hbefore.sound.codes_step hstep c with hleft | ⟨rfl, code, hbegins, hcodes⟩
      · exact (hleft.sublist.filter _).trans (ih.trans (List.sublist_append_right _ _))
      · rw [State.callees, hcodes]
        cases hbegins with
        | called hinvokes hruns =>
            rw [List.filter_cons_of_pos rfl, if_pos rfl, hinvokes.called?]
            exact List.Sublist.cons_cons _ ih
        | dropped =>
            rw [List.filter_cons_of_neg Bool.false_ne_true]
            exact ih.trans (List.sublist_append_right _ _)

end Program.Reaches

end Fibers
