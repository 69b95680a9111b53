import Fibers.Proofs.Generator.Numbers

/-!
# The rounds of a generator

The main program resumes the generator in a loop, and each time the generator goes on with one more
round of its own loop, which it never comes to the end of.  Between two rounds the generator is
parked inside its loop, with the pair of numbers to go on with in the cells and without any handle.
-/

namespace Fibers

namespace Generator

/-! ## Code in a loop -/

/-- What the main program does in each round. -/
def askOps : List Op := [.resume ⟨slot, true, none, slot, .keep⟩, .printCell output]

/-- What it does after the last round. -/
def closing : List Op := [.ask .affinity slot, .drop slot, .say "generator unwound"]

/-- The main program in a round, with others left. -/
def asking (left : Nat) (code : List Op) (h : Handle) : Activation :=
  ⟨"main", .program, [⟨.rounds left askOps, code, []⟩, ⟨.body, closing, [.slot slot h]⟩], .onward⟩

/-- The switch that ends a round of the generator. -/
def backSwitch : SwitchSpec := ⟨callerSlot, false, none, callerSlot, .keep⟩

/-- The generator in a round, with others left. -/
def yielding (left : Nat) (code : List Op) (h : Handle) : Activation :=
  ⟨"fibonacci", .called callerSlot,
    [⟨.rounds left roundOps, code, []⟩, ⟨.body, [], [.slot callerSlot h]⟩], .onward⟩

/-- After a round comes the next one. -/
theorem next_round (s : State) (w : World) (label : String) (role : Role) (left : Nat)
    (ops : List Op) (b : Block) (outer : List Block) (below : List Frame) :
    (s.go w (.code ⟨label, role, ⟨.rounds (left + 1) ops, [], []⟩ :: b :: outer, .onward⟩ ::
      below)).ComesTo
      (s.go w (.code ⟨label, role, ⟨.rounds left ops, ops, []⟩ :: b :: outer, .onward⟩ ::
        below)) := by
  refine ⟨1, ?_⟩
  cases role <;> rfl

/-- A running context goes on from the stack that it has. -/
theorem active_eq_go {s : State} {stack : List Frame} (hrun : s.control = .run)
    (hstack : s.stack = stack) : Config.active s = s.go s.world stack := by
  rcases s with ⟨w, running, there, contexts, control⟩
  cases hrun
  cases hstack
  rfl

/-! ## Switches -/

/-- Control has passed from one context to another, which lands where the other one waits. -/
structure Crosses (s t : State) (c : ContextId) (there waiting : List Frame) : Prop where
  comes : (Config.active s).ComesTo (.active t)
  running : t.running = c
  control : t.control = .landed s.running (.message .handover)
  stack : t.stack = there
  same : s.world.SameButTrace t.world
  waits : t.parked? s.running = some waiting

/-- Code that has taken a handle out of its own slot switches to a context that it may resume. -/
theorem crosses {s : State} {lost : List ContextId} {a a' : Activation} {below there : List Frame}
    {switch : SwitchSpec} {c : ContextId} (hsound : s.Sound lost)
    (hop : s.operation? = some (.resume switch)) (hstack : s.stack = .code a :: below)
    (htaken : (Scene.mk s.world a.advance).take switch.slot = (.live c, ⟨s.world, a'⟩))
    (hthere : s.parked? c = some there)
    (hallowed : (State.bindingIn there).allows (s.world.hosts.resolve switch.host) = true) :
    exists t, Crosses s t c there
      (.calling (.resume (s.world.hosts.resolve switch.host) none switch.target) a' :: below) := by
  have hbinding : s.bindingOf c = State.bindingIn there := by
    rw [State.bindingOf, hthere, Option.getD_some]
  rw [<- hbinding] at hallowed
  rcases hsound.resumes hop hstack htaken hallowed with ⟨there', w, hthere', hne, hsame, hcomes⟩
  cases hthere.symm.trans hthere'
  have hwaits := State.parked?_hop w
    (.calling (.resume (s.world.hosts.resolve switch.host) none switch.target) a' :: below) there
    (.message .handover) hsound.listed hthere hne s.running
  rw [if_neg hne.symm, if_pos rfl] at hwaits
  exact ⟨_, hcomes, rfl, rfl, rfl, hsame, hwaits⟩

/-! ## Whose turn it is -/

/-- How the generator is parked after so many rounds that were begun from a host. -/
inductive Parked (lease : Lease) (host : Host) : Nat -> List Frame -> Prop where
  | new :
      Parked lease host 0 [.base (.idle ⟨lease, some ⟨"fibonacci", [], callerSlot, body⟩⟩)]
  | between (before left : Nat) :
      left + before + 1 = endless ->
        Parked lease host (before + 1)
          [.calling (.resume host none callerSlot) (yielding left [] .empty), .base (.busy lease)]

/-- What the generator is bound to after so many rounds. -/
def bindingAfter (host : Host) : Nat -> Affinity
  | 0 => .unbound
  | _ + 1 => .bound host

theorem Parked.bindingIn_eq {lease : Lease} {host : Host} {done : Nat} {there : List Frame}
    (h : Parked lease host done there) : State.bindingIn there = bindingAfter host done := by
  cases h <;> rfl

theorem bindingAfter_allows (host : Host) (done : Nat) :
    (bindingAfter host done).allows host = true := by
  cases done with
  | zero => rfl
  | succ done => exact decide_eq_true rfl

/-- The main program runs some code, and the generator is parked after so many rounds. -/
structure MainRuns (s : State) (a : Activation) (fiber : ContextId) (lease : Lease) (done : Nat)
    (told : World) : Prop where
  running : s.running = mainContext
  control : s.control = .run
  stack : s.stack = [.code a, .root .program]
  globals : s.world.globals = []
  parked : exists there, s.parked? fiber = some there ∧ Parked lease s.world.hosts.self done there
  tells : told.Tells s.world

/-- The generator runs some code, and the main program waits for it with other code. -/
structure FiberRuns (s : State) (a waiting : Activation) (fiber : ContextId) (lease : Lease)
    (told : World) : Prop where
  running : s.running = fiber
  control : s.control = .run
  stack : s.stack = [.code a, .base (.busy lease)]
  globals : s.world.globals = []
  waits : s.parked? mainContext =
    some [.calling (.resume s.world.hosts.self none slot) waiting, .root .program]
  tells : told.Tells s.world

section Turns

variable {s : State} {lost : List ContextId} {lease : Lease} {fiber : ContextId} {a : Activation}
  {done left : Nat} {told : World} {host : Host}

theorem MainRuns.ne_main (h : MainRuns s a fiber lease done told) (hsound : s.Sound lost) :
    fiber ≠ mainContext := by
  rcases h.parked with ⟨there, hthere, hparked⟩
  rintro rfl
  have hlisted := hsound.listed
  rw [h.running, hthere] at hlisted
  cases hlisted
  cases hparked

theorem FiberRuns.ne_main {waiting : Activation} (h : FiberRuns s a waiting fiber lease told)
    (hsound : s.Sound lost) : s.running ≠ mainContext := by
  intro hmain
  have hlisted := hsound.listed
  rw [hmain, h.waits] at hlisted
  cases hlisted

/-- A generator that is resumed begins a round. -/
theorem Parked.arrives (h : Parked lease host done s.stack) (hmore : done < endless)
    (hcontrol : s.control = .landed mainContext (.message .handover))
    (htells : told.Tells s.world) :
    exists w left, left + done + 1 = endless ∧ s.world.Written w ∧ (opening done told).Tells w ∧
      (Config.active s).ComesTo (s.go w
        [.code (yielding left roundOps (.live mainContext)), .base (.busy lease)]) := by
  generalize hstack : s.stack = stack at h
  cases h with
  | new =>
      let w := Op.writeAll "fibonacci" .fiber [.setCell "a" (.number 0), .setCell "b" (.number 1)]
        (s.world.trace (.dispatching lease.name))
      have htold : (opening 0 told).Tells w := Op.tells_writeAll _ (htells.trace _)
      have hbegins : (Config.active s).ComesTo (s.go w
          [.code (yielding endless [] (.live mainContext)), .base (.busy lease)]) := by
        rcases s with ⟨world, running, stack, contexts, control⟩
        cases hcontrol
        cases hstack
        exact ⟨4, rfl⟩
      obtain ⟨left, hleft⟩ : exists left, endless = left + 1 := ⟨endless - 1, rfl⟩
      rw [hleft] at hbegins
      exact ⟨w, left, hleft.symm, rfl, htold, hbegins.trans (next_round ..)⟩
  | between before left hleft =>
      have hput : (Scene.mk (s.world.note "fibonacci" (.resumed (.live mainContext)))
          (yielding left [] .empty)).put callerSlot (.live mainContext) =
            (.empty, ⟨s.world.note "fibonacci" (.resumed (.live mainContext)),
              yielding left [] (.live mainContext)⟩) := rfl
      have hdelivered := State.delivered hcontrol hstack (Or.inl ⟨rfl, rfl⟩) hput
      obtain ⟨left, rfl⟩ : exists less, left = less + 1 := ⟨left - 1, by omega⟩
      refine ⟨_, left, by omega, .note _ _ _, htells.note _ _, hdelivered.trans (next_round ..)⟩

/-- The main program resumes the generator. -/
theorem MainRuns.resumes (h : MainRuns s (asking left askOps (.live fiber)) fiber lease done told)
    (hsound : s.Sound lost) (hmore : done < endless) :
    exists t more, (Config.active s).ComesTo (.active t) ∧ more + done + 1 = endless ∧
      FiberRuns t (yielding more roundOps (.live mainContext))
        (asking left [.printCell output] .empty) fiber lease (opening done told) := by
  rcases h.parked with ⟨there, hthere, hparked⟩
  have htaken : (Scene.mk s.world (asking left [.printCell output] (.live fiber))).take slot =
      (.live fiber, ⟨s.world, asking left [.printCell output] .empty⟩) := rfl
  have hop : s.operation? = some (.resume ⟨slot, true, none, slot, .keep⟩) :=
    State.operation?_of_onward h.control h.stack rfl rfl
  have hallowed : (State.bindingIn there).allows (s.world.hosts.resolve none) = true := by
    rw [hparked.bindingIn_eq]
    exact bindingAfter_allows _ _
  rcases crosses hsound hop h.stack htaken hthere hallowed with ⟨t, hcross⟩
  have hlanded : Parked lease s.world.hosts.self done t.stack := by
    rw [hcross.stack]
    exact hparked
  have hcontrol : t.control = .landed mainContext (.message .handover) := by
    rw [hcross.control, h.running]
  rcases hlanded.arrives hmore hcontrol (h.tells.of_sameButTrace hcross.same) with
    ⟨w, more, hmore', hopens, htells, hcomes⟩
  have hwritten := (World.Written.of_sameButTrace hcross.same).trans hopens
  have hwaits := hcross.waits
  rw [h.running] at hwaits
  refine ⟨_, more, hcross.comes.trans hcomes, hmore', hcross.running, rfl, rfl,
    hwritten.globals.trans h.globals, ?_, htells⟩
  rw [hwritten.hosts]
  exact hwaits

/-- The generator writes the numbers of a round. -/
theorem FiberRuns.writes {waiting : Activation}
    (h : FiberRuns s (yielding left roundOps (.live mainContext)) waiting fiber lease told)
    (hsound : s.Sound lost) :
    exists t, (Config.active s).ComesTo (.active t) ∧
      FiberRuns t (yielding left [.resume backSwitch] (.live mainContext)) waiting fiber lease
        (Op.writeAll "fibonacci" .fiber yieldOps told) := by
  have hkind : s.world.kindOf s.running = .fiber := by
    have hhome := hsound.kind
    rwa [homeOf, if_neg (h.ne_main hsound)] at hhome
  have hwritten := Op.written_writeAll "fibonacci" .fiber yieldOps s.world
  have hwrites : (Config.active s).ComesTo
      (s.go (Op.writeAll "fibonacci" .fiber yieldOps s.world)
        [.code (yielding left [.resume backSwitch] (.live mainContext)), .base (.busy lease)]) := by
    rw [active_eq_go h.control h.stack]
    exact s.writes_all yieldOps rfl s.world (.rounds left roundOps) [.resume backSwitch] []
      [⟨.body, [], [.slot callerSlot (.live mainContext)]⟩] hkind
  refine ⟨_, hwrites, h.running, rfl, rfl, hwritten.globals.trans h.globals, ?_,
    Op.tells_writeAll yieldOps h.tells⟩
  have hwaits := h.waits
  rw [<- hwritten.hosts] at hwaits
  exact hwaits

/-- The generator goes back to the main program, and parks in its loop. -/
theorem FiberRuns.resumes {more : Nat} {code : List Op}
    (h : FiberRuns s (yielding more [.resume backSwitch] (.live mainContext))
      (asking left code .empty) fiber lease told)
    (hsound : s.Sound lost) (hmore : more + done + 1 = endless) :
    exists t, (Config.active s).ComesTo (.active t) ∧
      MainRuns t (asking left code (.live fiber)) fiber lease (done + 1)
        (told.note "main" (.resumed (.live fiber))) := by
  have htaken : (Scene.mk s.world (yielding more [] (.live mainContext))).take callerSlot =
      (.live mainContext, ⟨s.world, yielding more [] .empty⟩) := rfl
  have hop : s.operation? = some (.resume backSwitch) :=
    State.operation?_of_onward h.control h.stack rfl rfl
  rcases crosses hsound hop h.stack htaken h.waits (decide_eq_true rfl) with ⟨t, hcross⟩
  have hcontrol : t.control = .landed fiber (.message .handover) := by
    rw [hcross.control, h.running]
  have hput : (Scene.mk (t.world.note "main" (.resumed (.live fiber)))
      (asking left code .empty)).put slot (.live fiber) =
        (.empty, ⟨t.world.note "main" (.resumed (.live fiber)),
          asking left code (.live fiber)⟩) := rfl
  have hdelivered := State.delivered hcontrol hcross.stack (Or.inl ⟨rfl, rfl⟩) hput
  have hwritten := World.Written.of_sameButTrace hcross.same
  have hparks : Parked lease t.world.hosts.self (done + 1)
      [.calling (.resume s.world.hosts.self none callerSlot) (yielding more [] .empty),
        .base (.busy lease)] := by
    rw [hwritten.hosts]
    exact .between done more hmore
  have hwaits := hcross.waits
  rw [h.running] at hwaits
  exact ⟨_, hcross.comes.trans hdelivered, hcross.running, rfl, rfl,
    hwritten.globals.trans h.globals, ⟨_, hwaits, hparks⟩,
    (h.tells.of_sameButTrace hcross.same).note _ _⟩

/-- The main program tells the number that it has got. -/
theorem MainRuns.prints
    (h : MainRuns s (asking left [.printCell output] (.live fiber)) fiber lease done told) :
    exists t, (Config.active s).ComesTo (.active t) ∧
      MainRuns t (asking left [] (.live fiber)) fiber lease done
        (Op.writeAll "main" .native [.printCell output] told) := by
  have hprints : (Config.active s).ComesTo
      (s.go (Op.writeAll "main" .native [.printCell output] s.world)
        [.code (asking left [] (.live fiber)), .root .program]) := by
    rw [active_eq_go h.control h.stack]
    exact ⟨1, rfl⟩
  exact ⟨_, hprints, h.running, rfl, rfl, h.globals, h.parked, Op.tells_writeAll _ h.tells⟩

end Turns

/-! ## Rounds in a run -/

section Runs

variable {p : Program} {past : List State} {s : State} {lease : Lease} {fiber : ContextId}
  {done left : Nat} {told : World}

/-- One round: there, and back with a number. -/
theorem MainRuns.round (h : MainRuns s (asking left askOps (.live fiber)) fiber lease done told)
    (hreach : p.Reaches past s) (hmore : done < endless) :
    exists t, (Config.active s).ComesTo (.active t) ∧
      MainRuns t (asking left [] (.live fiber)) fiber lease (done + 1)
        (tellRound fiber done told) := by
  rcases h.resumes hreach.sound hmore with ⟨s₁, more, hcomes₁, hmore₁, hturn₁⟩
  rcases hreach.comesTo hcomes₁ with ⟨past₁, hreach₁⟩
  rcases hturn₁.writes hreach₁.sound with ⟨s₂, hcomes₂, hturn₂⟩
  rcases hreach₁.comesTo hcomes₂ with ⟨past₂, hreach₂⟩
  rcases hturn₂.resumes hreach₂.sound hmore₁ with ⟨s₃, hcomes₃, hturn₃⟩
  rcases hturn₃.prints with ⟨s₄, hcomes₄, hturn₄⟩
  exact ⟨s₄, hcomes₁.trans (hcomes₂.trans (hcomes₃.trans hcomes₄)), hturn₄⟩

/-- All rounds that the main program has left, after which it goes on with what is around them. -/
theorem MainRuns.rounds {w : World}
    (h : MainRuns s (asking left [] (.live fiber)) fiber lease done (tellRounds fiber done w))
    (hreach : p.Reaches past s) (hmore : left + done ≤ endless) :
    exists t, (Config.active s).ComesTo (.active t) ∧
      MainRuns t (slot.holder "main" .program closing (.live fiber)) fiber lease (left + done)
        (tellRounds fiber (left + done) w) := by
  induction left generalizing past s done with
  | zero =>
      have hcloses : (Config.active s).ComesTo (s.go s.world
          [.code (slot.holder "main" .program closing (.live fiber)), .root .program]) := by
        rw [active_eq_go h.control h.stack]
        exact ⟨1, rfl⟩
      rw [Nat.zero_add]
      exact ⟨_, hcloses, h.running, rfl, rfl, h.globals, h.parked, h.tells⟩
  | succ left ih =>
      have hnext : (Config.active s).ComesTo
          (s.go s.world [.code (asking left askOps (.live fiber)), .root .program]) := by
        rw [active_eq_go h.control h.stack]
        exact next_round ..
      rcases hreach.comesTo hnext with ⟨past₁, hreach₁⟩
      have hturn₁ : MainRuns
          { s with
            stack := [.code (asking left askOps (.live fiber)), .root .program]
            control := .run }
          (asking left askOps (.live fiber)) fiber lease done (tellRounds fiber done w) :=
        ⟨h.running, rfl, rfl, h.globals, h.parked, h.tells⟩
      rcases hturn₁.round hreach₁ (by omega) with ⟨s₂, hcomes₂, hturn₂⟩
      rcases hreach₁.comesTo hcomes₂ with ⟨past₂, hreach₂⟩
      rcases ih hturn₂ hreach₂ (by omega) with ⟨t, hcomes, hturn⟩
      rw [show left + 1 + done = left + (done + 1) by omega]
      exact ⟨t, hnext.trans (hcomes₂.trans hcomes), hturn⟩

end Runs

end Generator

end Fibers
