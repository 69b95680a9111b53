import Fibers.Proofs.Build.Course
import Fibers.Proofs.Giveback
import Fibers.Proofs.Slots

/-!
# Fibers that cannot be made

A fiber cannot be made if the allocator fails, or if the stack that it gives has too few bytes for the
record of a fiber and some room to run in.  The failure takes one step, in which a stack that was handed
out goes back.  All that is left of the call then is the cause, and what its closure has captured.
-/

namespace Fibers

/-! ## Causes -/

/-- Why a fiber cannot be made on a stack that this allocator is asked for. -/
inductive Allocator.Fails (a : Allocator) (w : World) : BuildError -> Prop where
  | allocation {cause : StackError} :
      a.supply w.memory w.registry.ranges = .error cause -> Fails a w (.allocation cause)
  | tooSmall {stack : Region} {memory : Memory} :
      a.supply w.memory w.registry.ranges = .ok (stack, memory) ->
        stack.size < recordSize + 256 + 64 + 1024 ->
        Fails a w (.stackTooSmall stack.size (recordSize + 256 + 64 + 1024))

/-- The memory that is left when an allocator was asked for a stack. -/
def Allocator.left (a : Allocator) (w : World) : Memory :=
  match a.supply w.memory w.registry.ranges with
  | .ok (_, memory) => memory
  | .error _ => w.memory

namespace Allocator.Fails

variable {a : Allocator} {w w' : World} {cause cause' : BuildError}

theorem congr (hmemory : w'.memory = w.memory) (hregistry : w'.registry = w.registry)
    (h : a.Fails w cause) : a.Fails w' cause := by
  cases h with
  | allocation hsupply => exact .allocation (by rwa [hmemory, hregistry])
  | tooSmall hsupply hsmall =>
      rw [<- hmemory, <- hregistry] at hsupply
      exact .tooSmall hsupply hsmall

theorem unique (h : a.Fails w cause) (h' : a.Fails w cause') : cause = cause' := by
  cases h with
  | allocation hsupply =>
      cases h' with
      | allocation hsupply' =>
          cases hsupply.symm.trans hsupply'
          rfl
      | tooSmall hsupply' => cases hsupply.symm.trans hsupply'
  | tooSmall hsupply =>
      cases h' with
      | allocation hsupply' => cases hsupply.symm.trans hsupply'
      | tooSmall hsupply' =>
          cases hsupply.symm.trans hsupply'
          rfl

/-- A heap fails for stacks of fewer bytes than a record takes with its surroundings. -/
theorem heap_iff {label : String} {size : Nat} {site : Site} :
    (exists cause, (Allocator.heap label size site).Fails w cause) ↔ size < 1416 := by
  have hsupply : (Allocator.heap label size site).supply w.memory w.registry.ranges =
      .ok (site.reserve w.memory w.registry.ranges size) := rfl
  have hsize := site.size_reserve w.memory w.registry.ranges size
  constructor
  · rintro ⟨cause, hfails⟩
    cases hfails with
    | allocation hsupply' => cases hsupply.symm.trans hsupply'
    | tooSmall hsupply' hsmall =>
        cases hsupply.symm.trans hsupply'
        exact hsize ▸ hsmall
  · intro hsmall
    have hsmall' : (site.reserve w.memory w.registry.ranges size).1.size <
        recordSize + 256 + 64 + 1024 := hsize.symm ▸ hsmall
    exact ⟨_, .tooSmall hsupply hsmall'⟩

/-- A fiber has no home just when its allocator fails. -/
theorem home?_eq_none {spec : FiberSpec} :
    spec.home? w = none ↔ exists cause, spec.allocator.Fails w cause := by
  unfold FiberSpec.home?
  split
  · rename_i stack memory hsupply
    split
    · rename_i hsmall
      exact ⟨fun _ => ⟨_, .tooSmall hsupply hsmall⟩, fun _ => rfl⟩
    · rename_i hsize
      constructor
      · intro hnone
        cases hnone
      · rintro ⟨cause, hfails⟩
        cases hfails with
        | allocation hsupply' => cases hsupply.symm.trans hsupply'
        | tooSmall hsupply' hsmall =>
            cases hsupply.symm.trans hsupply'
            exact absurd hsmall hsize
  · rename_i cause hsupply
    exact ⟨fun _ => ⟨_, .allocation hsupply⟩, fun _ => rfl⟩

end Allocator.Fails

/-! ## What is logged -/

/-- What is logged when a stack is asked for. -/
def FiberSpec.askLog (spec : FiberSpec) (k : StackKind) : List LogEntry :=
  spec.allocator.label?.toList.map (fun label => .allocated label k) ++
    [.traced .spanEntered, .traced (.spanMade spec.name)]

/-- What is logged when no fiber can be made: a stack that was handed out goes back. -/
def FiberSpec.failureLog (spec : FiberSpec) (k : StackKind) : BuildError -> List LogEntry
  | .allocation _ => spec.askLog k
  | .stackTooSmall _ _ =>
      spec.allocator.label?.toList.map (fun label => .deallocated label k) ++ spec.askLog k

theorem World.askForStack_eq (w : World) (spec : FiberSpec) (k : StackKind) :
    w.askForStack spec.name spec.allocator.label? k = { w with log := spec.askLog k ++ w.log } := by
  cases hlabel : spec.allocator.label? with
  | none => simp [askForStack, FiberSpec.askLog, hlabel, trace, report]
  | some label => simp [askForStack, FiberSpec.askLog, hlabel, trace, report]

/-- A stack that is handed out and given back leaves no other mark than the memory it has used up. -/
theorem World.returnStack_lendStack (w : World) (memory : Memory) (owner : Option String)
    (k : StackKind) :
    (w.lendStack memory owner).returnStack owner k =
      { w with
        memory := memory
        log := owner.toList.map (fun label => .deallocated label k) ++ w.log } := by
  cases owner with
  | none => simp [lendStack, returnStack]
  | some label => simp [lendStack, returnStack, report]

namespace State

variable {s s' t : State} {lost : List ContextId} {c : ContextId} {scene : Scene} {below : List Frame}
  {spec : FiberSpec} {cause : BuildError}

/-! ## The failing step -/

theorem create_of_fails (hfails : spec.allocator.Fails scene.world cause) (s : State)
    (below : List Frame) (f : Closure) :
    s.create scene below spec f = .active
      { s with
        world :=
          { scene.world with
            memory := spec.allocator.left scene.world
            log := spec.failureLog s.kind cause ++ scene.world.log }
        stack := dropFirst f.captured (.calling (.failBuild cause) scene.code :: below)
        control := .run } := by
  cases hfails with
  | allocation hsupply =>
      simp only [create, World.askForStack_eq, hsupply, failBuild, go, Allocator.left,
        FiberSpec.failureLog]
  | tooSmall hsupply hsmall =>
      have hrefused := Placement.onStack_of_small hsmall
      simp only [create, World.askForStack_eq, hsupply, place, hrefused,
        World.returnStack_lendStack, failBuild, go, Allocator.left, FiberSpec.failureLog,
        List.append_assoc]
      rfl

/-- A new fiber parks with its body, and control goes back to what has called for it. -/
theorem after_launched {a : Activation} {slot : SlotName} (w : World) (record : Record)
    (hlisted : s.parked? s.running = some []) (hnew : c ∉ contextKeys s.contexts) :
    exists t, Config.after 2
        (.active (s.launched w (.calling (.create slot) a :: below) c record)) = .active t ∧
      t.running = s.running ∧ t.control = .run ∧
        t.stack = .calling (.store [(slot, .live c)] none) a :: below ∧
          t.parked? c = some [.base (.idle record)] := by
  have hne := ne_running_of_new hlisted hnew
  have hparked := parked?_launched w (.calling (.create slot) a :: below) record hlisted hnew
  generalize hu : s.launched w (.calling (.create slot) a :: below) c record = u at hparked
  have hself : u.parked? u.running = some [] := by
    rw [hparked, <- hu]
    exact if_pos rfl
  have hmaker : u.parked? s.running = some (.calling (.create slot) a :: below) := by
    rw [hparked, if_neg hne.symm, if_pos rfl]
  have hparks : u.step = .active (u.hop u.world [.base (.idle record)] s.running
      (.calling (.create slot) a :: below) (.message .handover)) := by
    rw [<- transfer_eq_hop hmaker (List.cons_ne_nil _ _), <- hu]
    rfl
  have hrunning : s.running ≠ u.running := by
    rw [<- hu]
    exact hne.symm
  have hthere := parked?_hop u.world [.base (.idle record)] (.calling (.create slot) a :: below)
    (.message .handover) hself hmaker hrunning c
  rw [if_neg hne, if_pos (by rw [<- hu]; rfl)] at hthere
  refine ⟨{ u.hop u.world [.base (.idle record)] s.running [] (.message .handover) with
    world := (u.world.trace (.created c)).trace .spanLeft
    stack := .calling (.store [(slot, .live c)] none) a :: below
    control := .run }, ?_, rfl, rfl, rfl, hthere⟩
  rw [Config.after, hparks, <- hu]
  rfl

/-- Where nothing fails, a new fiber gets the body, and the call its handle. -/
theorem Sound.create_of_fits (h : s.Sound lost) (hmemory : scene.world.memory = s.world.memory)
    (hregistry : scene.world.registry = s.world.registry)
    (hfits : forall cause, ¬ spec.allocator.Fails s.world cause) (below : List Frame)
    (f : Closure) :
    exists s' t record, s.create scene below spec f = .active s' ∧
      s'.running ∉ contextKeys s.contexts ∧ s'.stack = [.base .unborn] ∧
        Config.after 2 (.active s') = .active t ∧ t.running = s.running ∧ t.control = .run ∧
          t.stack = .calling (.store [(spec.slot, .live s'.running)] none) scene.code :: below ∧
            t.parked? s'.running = some [.base (.idle record)] ∧ record.body = some f := by
  cases hhome : spec.home? s.world with
  | none =>
      rcases Allocator.Fails.home?_eq_none.mp hhome with ⟨cause, hfails⟩
      exact absurd hfails (hfits cause)
  | some c =>
      have hnew : c ∉ contextKeys s.contexts := fun hlisted =>
        Nat.ne_of_lt (h.lt_next hlisted) (FiberSpec.home_eq hhome)
      have hsame := (FiberSpec.home?_congr hmemory hregistry).trans hhome
      rcases create_of_home s below hsame f with ⟨w, record, hbody, hcreate⟩
      have hparked : (s.grown c).parked? c = some [.base .unborn] := List.lookup_cons_self
      rw [transfer_eq_hop hparked (List.cons_ne_nil _ _)] at hcreate
      rcases after_launched w record h.listed hnew with ⟨t, ht, hrunning, hrun, hstack, hthere⟩
      exact ⟨_, t, record, hcreate, hnew, rfl, ht, hrunning, hrun, hstack, hthere, hbody⟩

theorem dropFirst_inj {es : List Entry} {stack stack' : List Frame}
    (h : dropFirst es stack = dropFirst es stack') : stack = stack' := by
  cases es with
  | nil => exact h
  | cons e es => exact (List.cons.inj h).2

/-- A call fails for just the cause that its allocator has. -/
theorem Sound.create_fails_iff (h : s.Sound lost) (hmemory : scene.world.memory = s.world.memory)
    (hregistry : scene.world.registry = s.world.registry) (below : List Frame) (f : Closure) :
    (exists s', s.create scene below spec f = .active s' ∧
        s'.stack = dropFirst f.captured (.calling (.failBuild cause) scene.code :: below)) ↔
      spec.allocator.Fails s.world cause := by
  constructor
  · rintro ⟨s', hcreate, hstack⟩
    by_cases hfails : exists cause', spec.allocator.Fails s.world cause'
    · rcases hfails with ⟨cause', hfails⟩
      have hmove := create_of_fails (hfails.congr hmemory hregistry) s below f
      cases hmove.symm.trans hcreate
      cases dropFirst_inj hstack
      exact hfails
    · rcases h.create_of_fits hmemory hregistry (fun cause' hfails' => hfails ⟨cause', hfails'⟩)
        below f with ⟨t, -, -, hmove, -, hunborn, -⟩
      cases hmove.symm.trans hcreate
      rw [hunborn] at hstack
      cases hcaptured : f.captured <;> rw [hcaptured] at hstack <;> cases hstack
  · intro hfails
    exact ⟨_, create_of_fails (hfails.congr hmemory hregistry) s below f, rfl⟩

end State

/-! ## Closures whose guards act -/

/-- The same entry, where a guard may do anything at the end. -/
inductive Entry.Arms : Entry -> Entry -> Prop where
  | slot (name : SlotName) (h : Handle) : Arms (.slot name h) (.slot name h)
  | guard (label : String) (onDrop onDrop' : List Op) : Arms (.guard label onDrop) (.guard label onDrop')

theorem entryHoldings_of_arms {es es' : List Entry} (h : List.Forall₂ Entry.Arms es es') :
    entryHoldings es' = entryHoldings es := by
  induction h with
  | nil => rfl
  | cons hentry hrest ih =>
      simp only [entryHoldings, List.flatMap_cons] at ih ⊢
      rw [ih]
      cases hentry <;> rfl

namespace State

variable {s s' t : State} {lost : List ContextId} {c : ContextId} {below : List Frame}
  {cause : BuildError} {es es' : List Entry} {a : Activation} {w : World} {since : List State}

/-- The state after a call has failed, which is to drop some entries. -/
def failing (s : State) (w : World) (es : List Entry) (cause : BuildError) (a : Activation)
    (below : List Frame) : State :=
  { s with world := w, stack := dropFirst es (.calling (.failBuild cause) a :: below), control := .run }

/-- What guards do at the end does not matter to the soundness of a state. -/
theorem Sound.arm (h : (s.failing w es cause a below).Sound lost)
    (harms : List.Forall₂ Entry.Arms es es') : (s.failing w es' cause a below).Sound lost := by
  have hstands := h.stands
  simp only [Stands, failing] at hstands
  refine h.restack rfl ?_ ?_ ?_ ?_
  · cases harms with
    | nil => exact hstands.1
    | cons => exact hstands.1
  · cases harms with
    | nil => exact hstands.2
    | cons => trivial
  · have hsame := entryHoldings_of_arms harms
    cases harms with
    | nil => rfl
    | cons => simp only [failing, dropFirst, stackHoldings, List.flatMap_cons, Frame.holdings, hsame]
  · simp only [failing, leaseOf_dropFirst]

/-- No keeper has got a closure, or lost one. -/
theorem kept_failing {b : Activation} (hcontrol : s.control = .run)
    (hstack : s.stack = .code b :: below) (k : Keeper) :
    (s.failing w es cause a below).kept k = s.kept k := by
  have hthere : forall c, (s.failing w es cause a below).stackOf c =
      if c = s.running then some (dropFirst es (.calling (.failBuild cause) a :: below))
      else s.stackOf c := stackOf_go
  cases k with
  | fiber c =>
      rw [kept_fiber fun _ _ _ heq => (by cases heq), kept_fiber fun _ _ _ heq =>
        (by cases hcontrol.symm.trans heq), hthere]
      split
      · rename_i hc
        rw [hc, stackOf_running, hstack]
        cases es <;> rfl
      · rfl
  | sender c =>
      rw [kept, kept, hthere]
      split
      · rename_i hc
        rw [hc, stackOf_running, hstack]
        cases es <;> rfl
      · rfl

/-! ## Afterwards -/

theorem Leads.sane_of_mem {u : State} (h : s.Leads since t) (hsane : s.Sane) (hu : u ∈ since) :
    u.Sane := by
  induction h with
  | refl => cases hu
  | step hleads hstep ih =>
      rcases List.mem_cons.mp hu with rfl | hearlier
      · exact hleads.sane hsane
      · exact ih hearlier

/-- A number that was given out, and is that of no context, is never that of one. -/
theorem Leads.gone (h : s.Leads since t) (hsane : s.Sane) (hold : c < s.world.memory.next)
    (hgone : c ∉ contextKeys s.contexts) :
    c < t.world.memory.next ∧ c ∉ contextKeys t.contexts := by
  induction h with
  | refl => exact ⟨hold, hgone⟩
  | step hleads hstep ih =>
      rcases hleads.sane hsane with ⟨lost, hsound⟩
      exact (hsound.move hstep).1.gone ih.1 ih.2

/-- A stack that was too small for a fiber is apart from those of all fibers there are. -/
theorem apart_of_failing {spec : FiberSpec} {stack : Region} {memory : Memory} {lease : Lease}
    (hsane : (s.failing w es cause a below).Sane) (hregistry : w.registry = s.world.registry)
    (hsupply : spec.allocator.supply s.world.memory s.world.registry.ranges = .ok (stack, memory))
    (hlease : (s.failing w es cause a below).leaseAt c = some lease) : lease.stack.Apart stack := by
  rcases hsane with ⟨lost, hsound⟩
  have hmem : lease.stack ∈ w.registry.ranges := hsound.housed.mem_ranges hlease
  rw [hregistry] at hmem
  exact (Allocator.supply_ok hsupply).apart _ hmem

/-- No fiber ever has the number of a stack that was too small for one. -/
theorem Sound.unused {spec : FiberSpec} {stack : Region} {memory : Memory} (h : s.Sound lost)
    (hsane : (s.failing w es cause a below).Sane)
    (hmemory : w.memory = spec.allocator.left s.world)
    (hsupply : spec.allocator.supply s.world.memory s.world.registry.ranges = .ok (stack, memory))
    (hleads : (s.failing w es cause a below).Leads since t) :
    s.world.memory.next ∉ contextKeys t.contexts := by
  have hnew : s.world.memory.next ∉ contextKeys s.contexts :=
    fun hlisted => Nat.lt_irrefl _ (h.lt_next hlisted)
  have hused : s.world.memory.next < w.memory.next := by
    rw [hmemory, Allocator.left, hsupply, (Allocator.supply_ok hsupply).next]
    exact Nat.lt_succ_self _
  exact (hleads.gone hsane hused hnew).2

/-- A guard that is dropped by the call logs the kind of stack that the call was made on. -/
theorem Leads.dropped_on {u : State} {depth : Nat} {label : String} {onDrop : List Op}
    (h : s.Leads since t) (hsane : s.Sane) (hu : u ∈ since)
    (hdrop : u.dropAt? c depth = some (.guard label onDrop)) :
    exists u', u.step = .active u' ∧
      u'.world.log = .dropped label (homeOf c) :: u.world.log := by
  rcases h.sane_of_mem hsane hu with ⟨lost, hsound⟩
  unfold dropAt? at hdrop
  split at hdrop
  · rename_i hplace
    unfold dropping? at hdrop
    split at hdrop
    · rename_i e rest unwind low hcontrol hstack
      cases hdrop
      have hkind : u.kind = homeOf c := hsound.kind.trans (congrArg homeOf hplace.1)
      have hstep : u.step = u.runDiscarding (.guard label onDrop :: rest) unwind low := by
        simp only [State.step, hcontrol, run, hstack]
      rw [hstep, <- hkind]
      cases onDrop with
      | nil | cons => exact ⟨_, rfl, rfl⟩
    · cases hdrop
  · cases hdrop

end State

end Fibers
