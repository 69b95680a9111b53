import Fibers.Proofs.Locality.Step
import Fibers.Proofs.Stacks

/-!
# Runs above something else

A state can be put on top of another log, and the stack of one of its contexts above further frames.
The run goes the same way then, for as long as that context does not come to the end of its own
frames.
-/

namespace Fibers

/-! ## Further frames -/

/-- Further frames below those of a context, if it is the one that is meant. -/
def lay (c : ContextId) (low : List Frame) (d : ContextId) (stack : List Frame) : List Frame :=
  if d = c then stack ++ low else stack

/-- The same for a stack that may be in use, in which case none is listed. -/
def underlay (c : ContextId) (low : List Frame) (d : ContextId) : List Frame -> List Frame
  | [] => []
  | top :: below => top :: lay c low d below

def underlayAll (c : ContextId) (low : List Frame) (contexts : List (ContextId × List Frame)) :
    List (ContextId × List Frame) :=
  contexts.map fun entry => (entry.1, underlay c low entry.1 entry.2)

section Underlay

variable {c d : ContextId} {low stack : List Frame} {contexts : List (ContextId × List Frame)}

theorem lay_self : lay c low c stack = stack ++ low := if_pos rfl

theorem lay_of_ne (h : d ≠ c) : lay c low d stack = stack := if_neg h

theorem lay_cons (top : Frame) (below : List Frame) :
    lay c low d (top :: below) = top :: lay c low d below := by
  unfold lay
  split <;> rfl

theorem lay_eq_underlay (h : d = c -> stack ≠ []) : lay c low d stack = underlay c low d stack := by
  cases stack with
  | nil => exact lay_of_ne fun heq => h heq rfl
  | cons top below => exact lay_cons top below

theorem lookup_underlayAll :
    (underlayAll c low contexts).lookup d = (contexts.lookup d).map (underlay c low d) := by
  induction contexts with
  | nil => rfl
  | cons entry rest ih =>
      rcases entry with ⟨e, there⟩
      rw [underlayAll, List.map_cons, List.lookup_cons, List.lookup_cons]
      by_cases he : d = e
      · simp [he]
      · have hne : (d == e) = false := by simpa using he
        simp only [hne]
        exact ih

theorem underlayAll_replaceStack : underlayAll c low (replaceStack d stack contexts) =
    replaceStack d (underlay c low d stack) (underlayAll c low contexts) := by
  induction contexts with
  | nil => rfl
  | cons entry rest ih =>
      rcases entry with ⟨e, there⟩
      by_cases he : e = d
      · simp [underlayAll, replaceStack, he]
      · simp only [underlayAll] at ih
        simp [underlayAll, replaceStack, he, ih]

theorem underlayAll_filter (p : ContextId -> Bool) :
    underlayAll c low (contexts.filter fun entry => p entry.1) =
      (underlayAll c low contexts).filter fun entry => p entry.1 := by
  simp only [underlayAll, List.filter_map]
  rfl

theorem contextKeys_underlayAll : contextKeys (underlayAll c low contexts) = contextKeys contexts := by
  simp [contextKeys, underlayAll]

theorem underlayAll_nil : underlayAll c [] contexts = contexts := by
  have hsame : forall d stack, underlay c [] d stack = stack := by
    intro d stack
    cases stack with
    | nil => rfl
    | cons top below => simp [underlay, lay]
  simp [underlayAll, hsame]

/-- A context that no stack is listed for leaves the list as it is. -/
theorem underlayAll_of_listed (hkeys : (contextKeys contexts).Nodup)
    (hlisted : contexts.lookup c = some []) : underlayAll c low contexts = contexts := by
  have hsame : forall entry, entry ∈ contexts -> (entry.1, underlay c low entry.1 entry.2) = entry := by
    rintro ⟨d, there⟩ hmem
    by_cases hd : d = c
    · subst hd
      cases (lookup_of_mem hkeys hmem).symm.trans hlisted
      rfl
    · cases there with
      | nil => rfl
      | cons top below => simp only [underlay, lay_of_ne hd]
  exact (List.map_congr_left hsame).trans (List.map_id' contexts)

end Underlay

namespace State

/-- The state on top of another log, and with further frames below those of one context. -/
def atop (s : State) (c : ContextId) (base : List LogEntry) (low : List Frame) : State :=
  { s with
    world := s.world.onto base
    stack := lay c low s.running s.stack
    contexts := underlayAll c low s.contexts }

/-- Where a context runs, the frames are put below what it runs. -/
theorem atop_running {s : State} (hkeys : (contextKeys s.contexts).Nodup)
    (hlisted : s.parked? s.running = some []) (base : List LogEntry) (low : List Frame) :
    s.atop s.running base low =
      { s with world := s.world.onto base, stack := s.stack ++ low } := by
  simp only [atop, lay_self, underlayAll_of_listed hkeys hlisted]

end State

def Config.atop (c : ContextId) (base : List LogEntry) (low : List Frame) : Config -> Config
  | active s => .active (s.atop c base low)
  | halted outcome w => .halted outcome (w.onto base)

namespace State

variable {s : State} {c : ContextId} (base : List LogEntry) {low : List Frame}

theorem parked?_atop (d : ContextId) :
    (s.atop c base low).parked? d = (s.parked? d).map (underlay c low d) := lookup_underlayAll

/-- What lies below a frame makes no difference to a switch. -/
theorem transfer_atop (w : World) (stack : List Frame) (target : ContextId) (signal : Signal) :
    (s.atop c base low).transfer (w.onto base) (underlay c low s.running stack) target signal =
      (s.transfer w stack target signal).atop c base low := by
  simp only [transfer, parked?_atop]
  cases s.parked? target with
  | none => rfl
  | some there =>
      cases there with
      | nil => rfl
      | cons first rest =>
          simp only [Option.map_some, underlay, Config.atop, atop, underlayAll_replaceStack, lay_cons]

theorem grown_atop {fiber : ContextId} (h : fiber ≠ c) :
    (s.atop c base low).grown fiber = (s.grown fiber).atop c base low := by
  simp only [grown, atop, underlayAll, List.map_cons, underlay, lay_of_ne h]

theorem answer_atop (hstack : s.running = c -> s.stack ≠ []) (prober : ContextId)
    (binding : Affinity) :
    (s.atop c base low).answer prober binding = (s.answer prober binding).atop c base low := by
  have hatop : (s.atop c base low).stack = underlay c low s.running s.stack := lay_eq_underlay hstack
  simp only [answer, parked?_atop]
  cases s.parked? prober with
  | none => rfl
  | some there =>
      cases there with
      | nil => rfl
      | cons first rest =>
          simp only [Option.map_some, underlay]
          cases first with
          | code a | discarding entries cause | dropping | onTop source | base stage
          | root stage => rfl
          | calling call a =>
              cases call with
              | create slot | failBuild cause | resume host onTop target
              | refuse refusal slot onRefusal | store pending note => rfl
              | probe query reply purpose =>
                  have hwaiting : forall call : Call,
                      replaceStack prober (.calling call a :: lay c low prober rest)
                          (underlayAll c low s.contexts) =
                        underlayAll c low (replaceStack prober (.calling call a :: rest) s.contexts) := by
                    intro call
                    rw [underlayAll_replaceStack]
                    rfl
                  dsimp only
                  rw [hatop, show (s.atop c base low).contexts = underlayAll c low s.contexts from rfl,
                    hwaiting]
                  exact transfer_atop (s := { s with contexts := _ }) base s.world s.stack prober _

theorem callOnTop_atop (source : ContextId) :
    (s.atop c base low).callOnTop source = (s.callOnTop source).atop c base low := by
  simp only [callOnTop, parked?_atop]
  cases s.parked? source with
  | none => rfl
  | some there =>
      cases there with
      | nil => rfl
      | cons first rest =>
          simp only [Option.map_some, underlay]
          cases first with
          | code a | discarding entries cause | dropping | onTop source | base stage
          | root stage => rfl
          | calling call a =>
              cases call with
              | create slot | failBuild cause | probe query reply purpose
              | refuse refusal slot onRefusal | store pending note => rfl
              | resume host onTop target =>
                  cases onTop with
                  | none => rfl
                  | some f =>
                      simp only [Config.atop, atop, underlayAll_replaceStack, underlay, lay_cons]

theorem release_atop (source : ContextId) :
    (s.atop c base low).release source = (s.release source).atop c base low := by
  have hfilter : (underlayAll c low s.contexts).filter (fun entry => entry.1 ≠ source) =
      underlayAll c low (s.contexts.filter fun entry => entry.1 ≠ source) :=
    (underlayAll_filter fun d => d ≠ source).symm
  simp only [release, parked?_atop]
  cases s.parked? source with
  | none => rfl
  | some there =>
      cases there with
      | nil => rfl
      | cons first rest =>
          simp only [Option.map_some, underlay]
          cases first with
          | code a | calling call a | discarding entries cause | dropping | onTop source
          | root stage => rfl
          | base stage =>
              cases stage with
              | unborn | idle record | busy lease | leaving lease ending => rfl
              | exited lease =>
                  dsimp only
                  cases lease.owner <;> simp only [Config.atop, atop, hfilter] <;> rfl

/-- A deed makes the same of a state above other frames, unless it makes the context that is meant. -/
theorem Deed.perform_atop {d : Deed} {tail : List Frame}
    (hfresh : forall w top stack fiber record, d = .launch w top stack fiber record -> fiber ≠ c)
    (hstack : s.running = c -> s.stack ≠ [])
    (htail : forall stack, stack ++ tail = lay c low s.running stack) :
    d.perform base tail (s.atop c base low) = (d.perform [] [] s).atop c base low := by
  cases d with
  | go w stack control =>
      simp only [Deed.perform, htail, World.onto_nil, List.append_nil]
      rfl
  | leave w top stack target signal =>
      simp only [Deed.perform, htail, World.onto_nil, List.append_nil]
      exact transfer_atop base w (top :: stack) target signal
  | launch w top stack fiber record =>
      have hfiber := hfresh w top stack fiber record rfl
      simp only [Deed.perform, htail, World.onto_nil, List.append_nil, grown_atop base hfiber]
      exact transfer_atop (s := s.grown fiber) base w (top :: stack) fiber _
  | answer prober binding => exact answer_atop base hstack prober binding
  | call source => exact callOnTop_atop base source
  | release source => exact release_atop base source
  | halt outcome w => simp only [Deed.perform, World.onto_nil]; rfl

/-- A deed that is done wherever the state is put. -/
theorem Does.performs {d : Deed} (low : List Frame) (hshields : s.running = c -> Shields s.stack)
    (hd : forall base contexts tail, tail = [] ∨ Shields s.stack ->
      (s.within base contexts tail).step = d.perform base tail (s.within base contexts tail)) :
    exists tail, (forall stack, stack ++ tail = lay c low s.running stack) ∧
      (s.atop c base low).step = d.perform base tail (s.atop c base low) := by
  by_cases hrunning : s.running = c
  · have hatop : s.within base (underlayAll c low s.contexts) low = s.atop c base low := by
      simp only [within, atop, hrunning, lay_self]
    refine ⟨low, fun stack => by rw [hrunning, lay_self], ?_⟩
    simpa only [hatop] using hd base (underlayAll c low s.contexts) low (Or.inr (hshields hrunning))
  · have hatop : s.within base (underlayAll c low s.contexts) [] = s.atop c base low := by
      simp only [within, atop, lay_of_ne hrunning, List.append_nil]
    refine ⟨[], fun stack => by rw [List.append_nil, lay_of_ne hrunning], ?_⟩
    simpa only [hatop] using hd base (underlayAll c low s.contexts) [] (Or.inl rfl)

theorem Does.plainly {d : Deed} (hd : forall base contexts tail, tail = [] ∨ Shields s.stack ->
    (s.within base contexts tail).step = d.perform base tail (s.within base contexts tail)) :
    s.step = d.perform [] [] s := by
  have hsame : s.within [] s.contexts [] = s := by
    simp only [within, List.append_nil, World.onto_nil]
  simpa only [hsame] using hd [] s.contexts [] (Or.inl rfl)

theorem Shields.ne_nil {stack : List Frame} (h : Shields stack) : stack ≠ [] := by
  rintro rfl
  exact h

/--
A step goes the same way above other frames and another log, unless its context comes to the end of
its own frames.  That no fiber takes the name of this context follows wherever one such state is sound.
-/
theorem Sound.step_atop {lost : List ContextId} (h : (s.atop c base low).Sound lost)
    (hc : c ∈ contextKeys s.contexts) (hshields : s.running = c -> Shields s.stack)
    (base' : List LogEntry) (low' : List Frame) :
    (s.atop c base' low').step = s.step.atop c base' low' := by
  rcases does_step s with ⟨d, hd⟩
  rcases Does.performs base' low' hshields hd with ⟨tail', htail', hlaid'⟩
  rw [hlaid', Does.plainly hd]
  refine Deed.perform_atop base' ?_ (fun hrunning => (hshields hrunning).ne_nil) htail'
  rintro w top stack fiber record rfl
  rcases Does.performs base low hshields hd with ⟨tail, htail, hlaid⟩
  have hactive : ((s.atop c base low).grown fiber).transfer (w.onto base) (top :: (stack ++ tail))
      fiber (.start (some record)) = _ :=
    transfer_eq_hop List.lookup_cons_self (List.cons_ne_nil _ _)
  have hnew := h.new_of_launch hlaid (hlaid.trans hactive)
  rintro rfl
  apply hnew
  show fiber ∈ contextKeys (underlayAll fiber low s.contexts)
  rw [contextKeys_underlayAll]
  exact hc

end State

/-! ## Runs on top of another log -/

def State.onto (base : List LogEntry) (s : State) : State := { s with world := s.world.onto base }

/-- A configuration whose log has further entries at its old end. -/
def Config.onto (base : List LogEntry) : Config -> Config
  | active s => .active (s.onto base)
  | halted outcome w => .halted outcome (w.onto base)

theorem State.atop_nil (s : State) (c : ContextId) (base : List LogEntry) :
    s.atop c base [] = s.onto base := by
  simp only [atop, onto, underlayAll_nil, lay, List.append_nil, ite_self]

theorem Config.atop_nil (x : Config) (c : ContextId) (base : List LogEntry) :
    x.atop c base [] = x.onto base := by
  cases x with
  | active s => exact congrArg Config.active (s.atop_nil c base)
  | halted outcome w => rfl

/-- A step does not read the log. -/
theorem State.step_onto (s : State) (base : List LogEntry) :
    (s.onto base).step = s.step.onto base := by
  rcases does_step s with ⟨d, hd⟩
  -- Without further frames it does not matter which context they would belong to.
  obtain ⟨c, hc, hfresh⟩ : exists c, s.running ≠ c ∧
      forall w top stack fiber record, d = .launch w top stack fiber record -> fiber ≠ c := by
    cases d with
    | launch w top stack fiber record =>
        refine ⟨s.running + fiber + 1, Nat.ne_of_lt (Nat.lt_succ_of_le (Nat.le_add_right _ _)), ?_⟩
        rintro w' top' stack' fiber' record' heq
        cases heq
        exact Nat.ne_of_lt (Nat.lt_succ_of_le (Nat.le_add_left _ _))
    | go | leave | answer | call | release | halt =>
        exact ⟨s.running + 1, (Nat.succ_ne_self _).symm, fun _ _ _ _ _ heq => nomatch heq⟩
  rcases Does.performs base [] (fun heq => absurd heq hc) hd with ⟨tail, htail, hlaid⟩
  have hatop := Deed.perform_atop base hfresh (fun heq => absurd heq hc) htail
  rw [<- hlaid, <- Does.plainly hd, atop_nil, Config.atop_nil] at hatop
  exact hatop

/-- A run takes its course whatever was logged before. -/
theorem Config.after_onto (base : List LogEntry) (n : Nat) (x : Config) :
    after n (x.onto base) = (after n x).onto base := by
  induction n generalizing x with
  | zero => cases x <;> rfl
  | succ n ih =>
      cases x with
      | active s => exact (congrArg (after n) (s.step_onto base)).trans (ih s.step)
      | halted outcome w => rfl

end Fibers
