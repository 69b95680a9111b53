import Fibers.Proofs.Closures.Remains
import Fibers.Proofs.Trace.Passage

/-!
# The kinds of stacks

What kind of stack some code is on is asked by the code itself, by guards and allocators, and by
those who hold a handle.  Any of them is told that it is the native stack if the main program's
context runs there, and that it is a fiber's otherwise.
-/

namespace Fibers

theorem homeOf_eq_native {c : ContextId} : homeOf c = .native ↔ c = mainContext := by
  unfold homeOf
  split <;> simp_all

theorem Stacked.native_iff {k : StackKind} {stack : List Frame} (h : Stacked k stack) :
    k = .native ↔ exists stage, .root stage ∈ stack := by
  induction stack with
  | nil => exact h.elim
  | cons f below ih =>
      cases f with
      | code a => simpa using ih h.2
      | calling call a => simpa using ih h.2.2.2
      | discarding entries cause =>
          cases cause with
          | none => simpa using ih h.2
          | some cause => simpa using ih h.2.2
      | dropping => simpa using ih h.2
      | onTop source => simpa using ih h.2
      | base stage =>
          rcases h with ⟨rfl, -, rfl⟩
          simp
      | root stage =>
          rcases h with ⟨rfl, rfl⟩
          simp

namespace State

variable {s s' : State} {lost : List ContextId} {c source : ContextId} {k : StackKind}

/-! ## The running code -/

/-- The native stack is the one with the main program at its bottom. -/
theorem Sound.native_iff (h : s.Sound lost) :
    s.kind = .native ↔ exists stage, .root stage ∈ s.stack := by
  rw [h.kind]
  rcases h.stands.stacked with hstacked | ⟨hstack, source, r, hcontrol⟩
  · exact hstacked.native_iff
  · have hstands := h.stands
    simp only [Stands, hcontrol] at hstands
    rw [hstands.1, hstack]
    simp

theorem Reworks.seen {old new : List Frame} {entries : List LogEntry} {next : Onward}
    {e : LogEntry} (h : s.Reworks old new entries next) (he : e ∈ entries)
    (hseen : e.seen? = some k) : k = s.kind := by
  have hquiet : forall quiet, s.Uneventful quiet -> e ∈ quiet -> k = s.kind :=
    fun quiet hquiet hmem => (hquiet e hmem).2 k hseen
  cases h with
  | works _ _ _ hentries | panics _ _ hentries | departs _ _ _ _ hentries
  | unwinds _ _ hentries | caught _ _ _ hentries | root _ hentries => exact hquiet _ hentries he
  | fails _ hentries =>
      rcases mem_making he with hmem | rfl | rfl
      · exact hquiet _ hentries hmem
      · cases hseen
      · cases hseen
  | launches _ hentries =>
      rcases List.mem_cons.mp he with rfl | hmem
      · cases hseen
      · rcases mem_making hmem with hmem | rfl | rfl
        · exact hquiet _ hentries hmem
        · cases hseen
        · cases hseen
  | drops | dropsActing =>
      cases List.mem_singleton.mp he
      exact (Option.some.inj hseen).symm
  | born | failed =>
      simp only [List.mem_cons, List.not_mem_nil, or_false] at he
      rcases he with rfl | rfl <;> cases hseen
  | unwindsBuild | abandons | exits | dispatches | evicts =>
      cases List.mem_singleton.mp he
      cases hseen
  | _ => cases he

/-- What is seen in a step is the kind of stack that the running context has. -/
theorem Sound.seen (h : s.Sound lost) (hstep : s.step = .active s') :
    exists entries, s'.world.log = entries ++ s.world.log ∧
      forall e k, e ∈ entries -> e.seen? = some k -> k = homeOf s.running := by
  cases h.passage hstep with
  | reworks hstack hreworks hgoes hlog =>
      exact ⟨_, hlog, fun e k he hseen => (hreworks.seen he hseen).trans h.kind⟩
  | answers reply hcontrol hne hprober heq => exact ⟨[], by rw [heq]; rfl, nofun⟩
  | calls hcontrol hne hsource heq => exact ⟨[], by rw [heq]; rfl, nofun⟩
  | @releases source lease hcontrol hne hsource hreleases hlog =>
      refine ⟨lease.returnLog (homeOf s.running) ++ [.traced (.releasing lease.name)], ?_, ?_⟩
      · rw [hlog, List.append_assoc]
        rfl
      · intro e k he hseen
        rcases List.mem_append.mp he with hreturned | htraced
        · rcases List.mem_map.mp hreturned with ⟨label, -, rfl⟩
          exact (Option.some.inj hseen).symm
        · cases List.mem_singleton.mp htraced
          cases hseen

/-- Code that asks where it is notes the kind of stack that the running context has. -/
theorem Sound.place {a : Activation} {below : List Frame} (h : s.Sound lost)
    (hop : s.operation? = some .whereAmI) (hstack : s.stack = .code a :: below) :
    s.step = s.go (s.world.note a.label (.place (homeOf s.running))) (.code a.advance :: below) := by
  rw [step_of_operation hstack hop, <- h.kind, <- Activation.label_advance a]
  rfl

/-- A function runs on the stack of the context that it is sent to. -/
theorem Sound.runs_on_target (h : s.Sound lost) (hcontrol : s.control = .landed source .onTop) :
    exists (f : Closure) (s' : State),
      s.step = .active s' ∧ s'.running = s.running ∧ s'.kind = homeOf s.running ∧
      s'.stack = .code (f.activation (.live source)) :: .onTop source :: s.stack := by
  rcases h.call hcontrol with ⟨host, f, target, a, below, hsource, hmove, hsound⟩
  have hstep : s.step = s.callOnTop source := by simp only [step, hcontrol, land]
  exact ⟨f, _, hstep.trans hmove, rfl, hsound.kind, rfl⟩

/-- A stack is given back on that of the context that control has gone to. -/
theorem Sound.gives_back (h : s.Sound lost) (hcontrol : s.control = .landed source .exit) :
    exists (lease : Lease) (s' : State),
      s.step = .active s' ∧ s'.running = s.running ∧ s'.parked? source = none ∧
      s'.world.log = lease.returnLog (homeOf s.running) ++
        .traced (.releasing lease.name) :: s.world.log := by
  rcases h.release hcontrol with ⟨lease, s', hsource, hmove, hreleases, hsound⟩
  have hstep : s.step = s.release source := by simp only [step, hcontrol, land]
  have hgone : s'.parked? source = none := by rw [hreleases.parked?, if_pos rfl]
  exact ⟨lease, s', hstep.trans hmove, hreleases.running, hgone,
    hsound.log_of_release hsource hmove⟩

/-- The captured entries of a body that is destroyed are dropped on its fiber's own stack. -/
theorem Sound.kind_of_destroys {keeper : Keeper} {f : Closure} (h : s.Sound lost)
    (hdestroys : s.Destroys keeper f) :
    keeper = .sender s.running ∨ keeper = .fiber s.running ∧ s.kind = .fiber := by
  cases hdestroys with
  | refused => exact Or.inl rfl
  | evicted hcontrol hstack =>
      refine Or.inr ⟨rfl, ?_⟩
      cases hkind : s.kind with
      | fiber => rfl
      | native =>
          rcases h.native_iff.mp hkind with ⟨stage, hroot⟩
          rw [hstack] at hroot
          cases List.mem_singleton.mp hroot

/-! ## Handles -/

/-- A context that waits has the kind that the registry tells of an address on its stack. -/
theorem Sound.kindOf_of_token {need : Need} (h : s.Sound lost)
    (htoken : 0 < s.holdings.count (.token need c)) :
    s.world.kindOf c = homeOf c := by
  rcases h.parked_of_token htoken with ⟨stack, hstack, hneed⟩
  have hne := h.ne_running hstack hneed
  exact h.housed.kindAt fun hc => h.leaseAt_of_parked hc hne hstack

/-- Whether a holding is the handle of a context on the native stack. -/
def isNativeHandle (s : State) : Holding -> Bool
  | .token .handle c => s.world.kindOf c = .native
  | _ => false

theorem Sound.countP_isNativeHandle (h : s.Sound lost) :
    s.holdings.countP s.isNativeHandle ≤ s.handlesOf mainContext := by
  refine List.countP_mono_left fun x hx hnative => ?_
  cases x with
  | guard label => cases hnative
  | token need c =>
      cases need with
      | handle =>
          have hkind : s.world.kindOf c = .native := by simpa [isNativeHandle] using hnative
          rw [h.kindOf_of_token (List.count_pos_iff.mpr hx)] at hkind
          rw [homeOf_eq_native.mp hkind]
          exact beq_self_eq_true _
      | _ => cases hnative

theorem Sound.handlesOf_main (h : s.Sound lost) :
    s.handlesOf mainContext ≤ 1 ∧ (s.running = mainContext -> s.handlesOf mainContext = 0) := by
  by_cases hnone : s.handlesOf mainContext = 0
  · exact ⟨by rw [hnone]; exact Nat.zero_le 1, fun _ => hnone⟩
  · rcases h.parked_of_token (Nat.pos_of_ne_zero hnone) with ⟨stack, hstack, hneed⟩
    have hcount := h.count_token hstack .handle
    rw [if_pos hneed] at hcount
    unfold handlesOf
    exact ⟨by omega, fun hmain => absurd hmain.symm (h.ne_running hstack hneed)⟩

/-- A context on the native stack waits in a switch that it made. -/
theorem Sound.native_parked (h : s.Sound lost) (htoken : 0 < s.handlesOf mainContext) :
    mainContext ≠ s.running ∧ exists host target a below,
      s.parked? mainContext = some (.calling (.resume host none target) a :: below) := by
  rcases h.parked_of_token htoken with ⟨stack, hstack, hneed⟩
  have hne := h.ne_running hstack hneed
  have hstacked := (h.parked _ _ hne hstack).1
  rcases AtRest.of_needOf hstacked hneed with ⟨record, rfl⟩ | ⟨host, target, a, below, rfl⟩
  · cases hstacked.1
  · exact ⟨hne, host, target, a, below, hstack⟩

/-- Dropping the handle of the native stack's context ends the run, with nothing done before. -/
theorem Sound.abandons_native {name : SlotName} {rest : List Entry} {cause : Option Unwind}
    {below : List Frame} (h : s.Sound lost) (hrun : s.control = .run)
    (hstack : s.stack = .discarding (.slot name (.live c) :: rest) cause :: below)
    (hnative : s.world.kindOf c = .native) :
    Config.after 2 (.active s) =
      .halted (.aborted (.violation .nativeStackUnwound)) (s.world.trace (.abandoned c)) := by
  have hheld : 0 < s.handlesOf c := by
    refine List.count_pos_iff.mpr ?_
    simp [holdings, pool, hstack, Frame.holdings, Entry.holdings, Handle.holdings]
  have hmain : c = mainContext := homeOf_eq_native.mp ((h.kindOf_of_token hheld).symm.trans hnative)
  subst hmain
  rcases h.native_parked hheld with ⟨hne, host, target, a, low, hparked⟩
  have hstep : s.step = .active (s.hop (s.world.trace (.abandoned mainContext))
      (.dropping :: .discarding rest cause :: below) mainContext
      (.calling (.resume host none target) a :: low) (.message .eviction)) := by
    have hmove : s.step = s.transfer (s.world.trace (.abandoned mainContext))
        (.dropping :: .discarding rest cause :: below) mainContext (.message .eviction) := by
      simp only [step, hrun, run, hstack, runDiscarding]
    rw [hmove, transfer_eq_hop hparked (List.cons_ne_nil _ _)]
  have hbreach : (s.hop (s.world.trace (.abandoned mainContext))
      (.dropping :: .discarding rest cause :: below) mainContext
      (.calling (.resume host none target) a :: low) (.message .eviction)).step =
      .halted (.aborted (.violation .nativeStackUnwound))
        (s.world.trace (.abandoned mainContext)) := by
    have hkind : (s.hop (s.world.trace (.abandoned mainContext))
        (.dropping :: .discarding rest cause :: below) mainContext
        (.calling (.resume host none target) a :: low) (.message .eviction)).kind = .native :=
      hnative
    simp only [step, State.hop, land, receive]
    simp only [State.hop] at hkind
    simp only [hkind]
    rfl
  simp only [Config.after, hstep, hbreach]

/-! ## All states -/

/-- What a state of a run, with its past, shows of the kinds of stacks that are told. -/
structure TellsKinds (s : State) (past : List State) : Prop where
  /--
  The stacks of fibers are those that are registered, and no two of them meet.  What was given back is
  not among them, until it is handed out again.
  -/
  housed : Housed s.leaseAt s.world.registry s.world.address s.world.memory.next
  /-- It makes no difference which address on a stack is looked at. -/
  anywhere : forall a, s.world.registry.kindAt a = .fiber ↔
    exists c lease, s.leaseAt c = some lease ∧ lease.stack.contains a
  /-- The running code is on the native stack if its context is the main program's, and only then. -/
  native : (s.kind = .native ↔ s.running = mainContext) ∧
    (s.kind = .native ↔ exists stage, .root stage ∈ s.stack)
  /-- What guards and allocators have seen is the kind of stack that the step was made on. -/
  seen : forall later e earlier k, s.world.log = later ++ e :: earlier -> e.seen? = some k ->
    exists t u, [u, t] <:+: s :: past ∧ t.world.log <:+ earlier ∧ e :: earlier <:+ u.world.log ∧
      k = homeOf t.running
  /-- Code that asks is told. -/
  place : forall a below, s.operation? = some .whereAmI -> s.stack = .code a :: below ->
    s.step = s.go (s.world.note a.label (.place (homeOf s.running))) (.code a.advance :: below)
  /-- A function on top runs on the stack of its destination, whoever has sent it. -/
  onTop : forall source, s.control = .landed source .onTop ->
    exists (f : Closure) (s' : State),
      s.step = .active s' ∧ s'.running = s.running ∧ s'.kind = homeOf s.running ∧
        s'.stack = .code (f.activation (.live source)) :: .onTop source :: s.stack
  /-- What a closure has captured is dropped by the context that is refused, or that makes it. -/
  discarded : forall later t before f, past = later ++ t :: before -> t.Discards f ->
    Remains s t.running f.captured later
  /-- That of a fiber's body is dropped by the fiber. -/
  destroyed : forall keeper f, s.Destroys keeper f ->
    keeper = .sender s.running ∨ keeper = .fiber s.running ∧ s.kind = .fiber
  /-- The release of a stack counts for the context that control goes to. -/
  released : forall source, s.control = .landed source .exit ->
    exists (lease : Lease) (s' : State),
      s.step = .active s' ∧ s'.running = s.running ∧ s'.parked? source = none ∧
        s'.world.log = lease.returnLog (homeOf s.running) ++
          .traced (.releasing lease.name) :: s.world.log
  /-- A handle is of the kind that its context sees once it runs. -/
  handle : forall c, 0 < s.handlesOf c -> s.world.kindOf c = homeOf c ∧
    forall n t, Config.after n (.active s) = .active t -> t.running = c ->
      t.kind = s.world.kindOf c
  /-- And this is what a probe of it answers. -/
  asked : forall question slot c, s.operation? = some (.ask question slot) ->
    s.handleIn slot = .live c ->
      Config.after 5 (.active s) = .active (s.asked question c) ∧
        s.answerTo .stackKind c = .stackKind (homeOf c) ∧
        s.answerTo .canResumeAnywhere c = .canResumeAnywhere (decide (homeOf c = .fiber))
  one : s.holdings.countP s.isNativeHandle ≤ 1
  none : s.running = mainContext -> s.holdings.countP s.isNativeHandle = 0
  /-- The handle of the native stack's context cannot be dropped. -/
  kept : forall name c rest cause below, s.control = .run ->
    s.stack = .discarding (.slot name (.live c) :: rest) cause :: below ->
    s.world.kindOf c = .native ->
      Config.after 2 (.active s) =
          .halted (.aborted (.violation .nativeStackUnwound)) (s.world.trace (.abandoned c)) ∧
        Violation.nativeStackUnwound.message = "a thread's native stack cannot be unwound"

/-- A probe is told the kind of stack that the context has. -/
theorem Sound.asks_kind {question : Question} {slot : SlotName} (h : s.Sound lost)
    (hop : s.operation? = some (.ask question slot)) (hlive : s.handleIn slot = .live c) :
    Config.after 5 (.active s) = .active (s.asked question c) ∧
      s.answerTo .stackKind c = .stackKind (homeOf c) ∧
      s.answerTo .canResumeAnywhere c = .canResumeAnywhere (decide (homeOf c = .fiber)) := by
  refine ⟨h.bounce hop hlive, ?_⟩
  rcases operation?_eq_some hop with ⟨a, below, b, outer, rest, -, hstack, -⟩
  simp only [handleIn, hstack] at hlive
  rcases h.parked_of_slot hstack (Prod.ext hlive rfl) with ⟨hne, there, hthere, -⟩
  have hkind : s.world.kindOf c = homeOf c :=
    h.housed.kindAt fun hc => h.leaseAt_of_parked hc hne hthere
  simp only [answerTo, hkind, StackKind.canMove, and_self]

end State

namespace Program.Reaches

variable {p : Program} {past : List State} {s : State}

/-- Each entry was logged in some step, on the stack of the context that made it. -/
theorem seen (h : p.Reaches past s) {later earlier : List LogEntry} {e : LogEntry} {k : StackKind}
    (hlog : s.world.log = later ++ e :: earlier) (hseen : e.seen? = some k) :
    exists t u, [u, t] <:+: s :: past ∧ t.world.log <:+ earlier ∧ e :: earlier <:+ u.world.log ∧
      k = homeOf t.running := by
  induction h generalizing later with
  | start => cases later <;> cases hlog
  | @step past s s' hreach hstep ih =>
      rcases hreach.sound.seen hstep with ⟨entries, hentries, htold⟩
      rw [hentries] at hlog
      rcases List.append_eq_append_iff.mp hlog with ⟨more, hlater, hold⟩ | ⟨more, hnew, hold⟩
      · rcases ih hold with ⟨t, u, hadjacent, hbefore, hafter, hkind⟩
        exact ⟨t, u, hadjacent.trans (List.suffix_cons _ _).isInfix, hbefore, hafter, hkind⟩
      · cases more with
        | nil =>
            rcases @ih [] hold.symm with ⟨t, u, hadjacent, hbefore, hafter, hkind⟩
            exact ⟨t, u, hadjacent.trans (List.suffix_cons _ _).isInfix, hbefore, hafter, hkind⟩
        | cons e' more =>
            cases hold
            have hmem : e ∈ entries := by simp [hnew]
            refine ⟨s, s', ⟨[], past, rfl⟩, List.suffix_append _ _, ?_, htold e k hmem hseen⟩
            rw [hentries, hnew]
            exact ⟨later, by simp⟩

/-- A context is of the same kind whenever it runs. -/
theorem kind_later (h : p.Reaches past s) {n : Nat} {t : State}
    (hafter : Config.after n (.active s) = .active t) : t.kind = homeOf t.running := by
  rcases h.comesTo ⟨n, hafter⟩ with ⟨past', hreach⟩
  exact hreach.sound.kind

end Program.Reaches

/--
Wherever allocators put their stacks, as long as these keep apart from those in use, the kind of stack
that anybody is told of is native if the main program's context runs there, and a fiber's if not: code
and guards and allocators for the stack that they are called on, and those who ask through a handle
for the stack of its context.
-/
theorem kinds_told {p : Program} {past : List State} {s : State} (h : p.Reaches past s) :
    s.TellsKinds past :=
  have hmain := h.sound.handlesOf_main
  have hnative := h.sound.countP_isNativeHandle
  { housed := h.sound.housed
    anywhere := fun _ => h.sound.housed.kindAt_eq_fiber
    native := ⟨by rw [h.sound.kind, homeOf_eq_native], h.sound.native_iff⟩
    seen := fun _ _ _ _ hlog hseen => h.seen hlog hseen
    place := fun _ _ hop hstack => h.sound.place hop hstack
    onTop := fun _ hcontrol => h.sound.runs_on_target hcontrol
    discarded := fun _ _ _ _ hrun hdiscards => h.remains hrun hdiscards
    destroyed := fun _ _ hdestroys => h.sound.kind_of_destroys hdestroys
    released := fun _ hcontrol => h.sound.gives_back hcontrol
    handle := by
      intro c hheld
      have hkind := h.sound.kindOf_of_token hheld
      refine ⟨hkind, fun n t hafter hrunning => ?_⟩
      rw [h.kind_later hafter, hrunning, hkind]
    asked := fun _ _ _ hop hlive => h.sound.asks_kind hop hlive
    one := Nat.le_trans hnative hmain.1
    none := fun hrunning => Nat.le_zero.mp (hmain.2 hrunning ▸ hnative)
    kept := fun _ _ _ _ _ hrun hstack hkind =>
      ⟨h.sound.abandons_native hrun hstack hkind, rfl⟩ }

/-! ## Memory that is handed out again -/

/-- The same place for every stack, as long as it is free. -/
def Site.preferring (place : Nat) (hplace : pageSize ≤ place) : Site where
  bottom number size inUse :=
    if inUse.all (fun r => r.top ≤ place || place + size ≤ r.bottom) then place
    else above.bottom number size inUse
  page number size inUse := by
    split
    · exact hplace
    · exact above.page number size inUse
  apart number size inUse r hr := by
    split
    · rename_i hfree
      have hbeside := List.all_eq_true.mp hfree r hr
      simp only [Bool.or_eq_true, decide_eq_true_eq] at hbeside
      rcases hbeside with hbelow | habove
      · exact Region.apart_of_le hbelow
      · exact (Region.apart_of_le habove).symm
    · exact above.apart number size inUse r hr

/--
A program that drops one fiber, and makes another on a larger stack that has the place of the first in
its midst.  The second fiber asks where it is, and then drops the main program's handle.
-/
def Program.droppedCaller : Program where
  hosts := []
  main :=
    [.create ⟨.own "f", "E", none, .heap "A" 1500 (.preferring 6001 (by decide))⟩ [] [] [],
      .drop (.own "f"),
      .create ⟨.own "f", "F", none, .heap "B" 4000 (.preferring 5001 (by decide))⟩ ["g"] []
        [.whereAmI, .drop (.own "caller")],
      .resume ⟨.own "f", false, none, .own "f", .keep⟩]

set_option maxRecDepth 10000 in
/--
The second stack reaches above the first one.  Were the first still registered, what runs up there
would not be found on a fiber's stack.
-/
theorem kinds_told_of_droppedCaller :
    exists past s t, Program.droppedCaller.Reaches past s ∧ s.TellsKinds past ∧
      Config.after 5 (.active Program.droppedCaller.start) = .active t ∧
      t.world.registry.ranges = [⟨6001, 7501⟩] ∧ s.world.registry.ranges = [⟨5001, 9001⟩] ∧
      s.kind = .fiber ∧ s.holdings.countP s.isNativeHandle = 1 ∧
      Config.after 3 (.active s) = .halted (.aborted (.violation .nativeStackUnwound))
        (s.world.trace (.abandoned mainContext)) := by
  have hafter : exists s t, Config.after 20 (.active Program.droppedCaller.start) = .active s ∧
      Config.after 5 (.active Program.droppedCaller.start) = .active t ∧
      t.world.registry.ranges = [⟨6001, 7501⟩] ∧ s.world.registry.ranges = [⟨5001, 9001⟩] ∧
      s.kind = .fiber ∧ s.holdings.countP s.isNativeHandle = 1 ∧
      Config.after 3 (.active s) = .halted (.aborted (.violation .nativeStackUnwound))
        (s.world.trace (.abandoned mainContext)) :=
    ⟨_, _, rfl, rfl, rfl, rfl, rfl, rfl, rfl⟩
  rcases hafter with ⟨s, t, hs, ht, hbefore, hnow, hkind, hone, hdropped⟩
  rcases Program.after_eq_active.mp hs with ⟨past, -, hreach⟩
  exact ⟨past, s, t, hreach, kinds_told hreach, ht, hbefore, hnow, hkind, hone, hdropped⟩

end Fibers
