import Fibers.Proofs.Turn.Basic

/-!
# Reachable states

A state that comes up in a run is told together with the states before it.  What has happened so far
is read off these.
-/

namespace Fibers

namespace Program

/-- The states of a run, each with those before it, the latest first. -/
inductive Reaches (p : Program) : List State -> State -> Prop where
  | start : Reaches p [] p.start
  | step {past : List State} {s s' : State} :
      Reaches p past s -> s.step = .active s' -> Reaches p (s :: past) s'

end Program

namespace Config

def next : Config -> Config
  | active s => s.step
  | halted outcome w => halted outcome w

@[simp] theorem after_halted (n : Nat) (outcome : Outcome) (w : World) :
    after n (.halted outcome w) = .halted outcome w := by
  cases n <;> rfl

theorem after_succ (n : Nat) (c : Config) : after (n + 1) c = (after n c).next := by
  induction n generalizing c with
  | zero => cases c <;> rfl
  | succ n ih =>
      cases c with
      | active s => exact ih s.step
      | halted outcome w => rfl

theorem after_add (n m : Nat) (c : Config) : after (n + m) c = after m (after n c) := by
  induction m with
  | zero => cases after n c <;> rfl
  | succ m ih => rw [<- Nat.add_assoc, after_succ, after_succ, ih]

/-- Following a configuration step by step comes to another one. -/
def ComesTo (c c' : Config) : Prop := exists n, after n c = c'

namespace ComesTo

variable {c c' c'' : Config}

theorem refl (c : Config) : c.ComesTo c := ⟨0, by cases c <;> rfl⟩

theorem trans (h : c.ComesTo c') (h' : c'.ComesTo c'') : c.ComesTo c'' := by
  rcases h with ⟨n, hn⟩
  rcases h' with ⟨m, hm⟩
  exact ⟨n + m, by rw [after_add, hn, hm]⟩

end ComesTo

end Config

namespace State

variable {s t : State} {since : List State}

/-- Steps lead from one state to another, through the states listed, the latest first. -/
inductive Leads (s : State) : List State -> State -> Prop where
  | refl : Leads s [] s
  | step {since : List State} {t u : State} :
      Leads s since t -> t.step = .active u -> Leads s (t :: since) u

/-- The states that are led to are those that following the first one step by step comes to. -/
theorem after_eq_active {n : Nat} :
    Config.after n (.active s) = .active t ↔ exists since, since.length = n ∧ s.Leads since t := by
  induction n generalizing t with
  | zero =>
      constructor
      · intro h
        cases h
        exact ⟨[], rfl, .refl⟩
      · rintro ⟨since, hlength, hleads⟩
        cases hleads with
        | refl => rfl
        | step _ _ => cases hlength
  | succ n ih =>
      rw [Config.after_succ]
      constructor
      · intro h
        cases hafter : Config.after n (.active s) with
        | halted outcome w =>
            rw [hafter] at h
            cases h
        | active u =>
            rw [hafter] at h
            rcases ih.mp hafter with ⟨since, hlength, hleads⟩
            exact ⟨u :: since, congrArg Nat.succ hlength, hleads.step h⟩
      · rintro ⟨since, hlength, hleads⟩
        cases hleads with
        | refl => cases hlength
        | step hearlier hstep =>
            rw [ih.mpr ⟨_, Nat.succ.inj hlength, hearlier⟩]
            exact hstep

end State

namespace Program

variable {p : Program}

theorem reaches_iff {past : List State} {s : State} :
    p.Reaches past s ↔ p.start.Leads past s := by
  constructor
  · intro h
    induction h with
    | start => exact .refl
    | step _ hstep ih => exact ih.step hstep
  · intro h
    induction h with
    | refl => exact .start
    | step _ hstep ih => exact ih.step hstep

/-- The states of a run are those that following it step by step comes to. -/
theorem after_eq_active {n : Nat} {s : State} :
    Config.after n (.active p.start) = .active s ↔
      exists past, past.length = n ∧ p.Reaches past s := by
  simp only [reaches_iff]
  exact State.after_eq_active

/-- A run ends with what the step of one of its states ends with. -/
theorem after_eq_halted {n : Nat} {outcome : Outcome} {w : World}
    (h : Config.after n (.active p.start) = .halted outcome w) :
    exists past s, p.Reaches past s ∧ s.step = .halted outcome w := by
  induction n with
  | zero => cases h
  | succ n ih =>
      rw [Config.after_succ] at h
      cases hafter : Config.after n (.active p.start) with
      | halted outcome' w' =>
          rw [hafter] at h
          cases h
          exact ih hafter
      | active s =>
          rw [hafter] at h
          rcases after_eq_active.mp hafter with ⟨past, -, hreach⟩
          exact ⟨past, s, hreach, h⟩

/-- What a state of a run comes to is a state of the run. -/
theorem Reaches.comesTo {past : List State} {s t : State} (h : p.Reaches past s)
    (hcomes : (Config.active s).ComesTo (.active t)) : exists past', p.Reaches past' t := by
  rcases hcomes with ⟨n, hn⟩
  have hlater : Config.after (past.length + n) (.active p.start) = .active t := by
    rw [Config.after_add, after_eq_active.mpr ⟨past, rfl, h⟩, hn]
  rcases after_eq_active.mp hlater with ⟨past', -, hreach⟩
  exact ⟨past', hreach⟩

/-- A small program to look at: it makes a fiber that has captured a guard, and ends. -/
def oneFiber : Program where
  hosts := []
  main := [.create ⟨.own "f", "F", none, .heap "A" 4096⟩ ["g"] [] []]

/-- Another one: its fiber resumes the main program, which ends and so abandons the fiber. -/
def parkedFiber : Program where
  hosts := []
  main :=
    [.create ⟨.own "f", "F", none, .heap "A" 4096⟩ ["g"] []
        [.resume ⟨.own "caller", false, none, .own "caller", .keep⟩],
      .resume ⟨.own "f", false, none, .own "f", .keep⟩]

/-- In this one a fiber parks on another host, and is then to be resumed from the program's own. -/
def foreignHost : Program where
  hosts := [("h", .drawn)]
  main :=
    [.create ⟨.own "f", "F", none, .heap "A" 4096⟩ [] []
        [.resume ⟨.own "caller", false, some "h", .own "caller", .keep⟩],
      .resume ⟨.own "f", false, none, .own "f", .keep⟩,
      .resumeWith ⟨.own "f", true, none, .own "f", .keep⟩ ["g"] [] [.say "called"]]

/-- Here the fiber that is abandoned attempts its code, and owns another that never ran. -/
def nestedFibers : Program where
  hosts := []
  main :=
    [.create ⟨.own "inner", "G", none, .heap "B" 4096⟩ ["h"] [] [],
      .create ⟨.own "outer", "F", none, .heap "A" 4096⟩ ["g"] [.own "inner"]
        [.attempt false
          [.guard "l" [], .resume ⟨.own "caller", false, none, .own "caller", .keep⟩]],
      .resume ⟨.own "outer", false, none, .own "outer", .keep⟩]

end Program

end Fibers
