import Fibers.Proofs.Ownership

/-!
# Where unwinds end

User code on the stack of a fiber is enclosed: what lies below it is a function on top or the body
of the fiber, which catch all unwinds, or an earlier unwind that the code is run by.  The one thing
that a fiber drops outside is what a body has captured that was never called.  In a program's run no
unwind comes up there, since what its closures capture does nothing when it is dropped.

An unwind that leaves user code is handed on to what a function on top was covering, or it ends the
fiber, and control goes to the context that has asked for it.  A panic ends the run.
-/

namespace Fibers

/-! ## What encloses user code -/

/-- Frames of user code, and of what is dropped in its course.  Unwinds pass them. -/
def Frame.isUser : Frame -> Bool
  | code _ | calling _ _ | dropping | discarding _ none => true
  | _ => false

/-- An unwind drops something here. -/
def Frame.isUnwinding : Frame -> Bool
  | discarding _ (some _) => true
  | _ => false

/-- No unwind is in progress on a stack. -/
def Calm (stack : List Frame) : Prop := forall f, f ∈ stack -> f.isUnwinding = false

/-- The text that the payload of a panic gives: a text gives itself, and all else the same. -/
inductive Payload.Says : Payload -> String -> Prop where
  | text (message : String) : Says (.text message) message
  | other : Says .other "unknown panic"

theorem Payload.says_message (payload : Payload) : payload.Says payload.message := by
  cases payload with
  | text message => exact .text message
  | other => exact .other

/-- What an unwind comes to when it has left the topmost user code. -/
def enclosure (stack : List Frame) : List Frame := stack.dropWhile Frame.isUser

/-- A boundary that catches unwinds lies on top: of a function, or of the body of a fiber. -/
inductive Catches : List Frame -> Prop where
  | onTop (source : ContextId) (below : List Frame) : Catches (.onTop source :: below)
  | body (lease : Lease) : Catches [.base (.busy lease)]

/-- On top lies something that is dropped as a part of an unwind. -/
inductive InUnwind : List Frame -> Prop where
  | intro (entries : List Entry) (cause : Unwind) (below : List Frame) :
      InUnwind (.discarding entries (some cause) :: below)

/-- A fiber that was never called drops what its body has captured. -/
inductive DropsCaptured (lease : Lease) (requester : ContextId) : List Frame -> Prop where
  | running (entries : List Entry) :
      entries.all Entry.isPlain = true ->
        DropsCaptured lease requester
          [.discarding entries none, .base (.leaving lease (.unwound requester))]
  | waiting (entries : List Entry) :
      entries.all Entry.isPlain = true ->
        DropsCaptured lease requester
          [.dropping, .discarding entries none, .base (.leaving lease (.unwound requester))]

section Enclosure

variable {f : Frame} {stack below : List Frame} {k : StackKind} {lease : Lease} {ending : Ending}
  {requester : ContextId}

theorem enclosure_of_isUser (h : f.isUser = true) : enclosure (f :: below) = enclosure below :=
  List.dropWhile_cons_of_pos h

theorem enclosure_of_not_isUser (h : f.isUser = false) : enclosure (f :: below) = f :: below :=
  List.dropWhile_cons_of_neg (by simp [h])

theorem Calm.not_inUnwind (h : Calm stack) : ¬ InUnwind (enclosure stack) := by
  intro hin
  generalize henclosure : enclosure stack = rest at hin
  rcases hin with ⟨entries, cause, below⟩
  have hmem : Frame.discarding entries (some cause) ∈ stack := by
    apply (List.dropWhile_suffix Frame.isUser).subset
    rw [show stack.dropWhile Frame.isUser = _ from henclosure]
    exact List.mem_cons_self
  cases h _ hmem

theorem DropsCaptured.calm (h : DropsCaptured lease requester stack) : Calm stack := by
  cases h <;> simp [Calm, Frame.isUnwinding]

theorem InCode.top (hstacked : Stacked k stack) (hin : InCode stack) :
    exists f below, stack = f :: below ∧ f.isUser = true ∧ CarriesCode below ∧
      Stacked k below := by
  unfold InCode at hin
  split at hin
  · exact ⟨_, _, rfl, rfl, hstacked⟩
  · exact ⟨_, _, rfl, rfl, hstacked.2.2⟩
  · exact ⟨_, _, rfl, rfl, hstacked.2.2⟩
  · exact ⟨_, _, rfl, rfl, hstacked.2.2⟩
  · exact False.elim hin

theorem CarriesCode.top (hstacked : Stacked .fiber stack) (hcarries : CarriesCode stack) :
    Catches stack ∨ InUnwind stack ∨
      exists entries below, stack = .discarding entries none :: below ∧ InCode below ∧
        Stacked .fiber below := by
  unfold CarriesCode at hcarries
  split at hcarries
  · exact Or.inl (.onTop _ _)
  · rcases hstacked with ⟨-, -, rfl⟩
    exact Or.inl (.body _)
  · cases hstacked.1
  · exact Or.inr (Or.inl (.intro _ _ _))
  · exact Or.inr (Or.inr ⟨_, _, rfl, hcarries, hstacked.2⟩)
  · exact False.elim hcarries

theorem Catches.enclosure_eq (h : Catches stack) : enclosure stack = stack := by
  cases h <;> exact enclosure_of_not_isUser rfl

theorem InUnwind.enclosure_eq (h : InUnwind stack) : enclosure stack = stack := by
  cases h
  exact enclosure_of_not_isUser rfl

/-- The nearest boundary may lie below other code that is waiting for a drop. -/
theorem CarriesCode.enclosed (hstacked : Stacked .fiber stack) (hcarries : CarriesCode stack) :
    Catches (enclosure stack) ∨ InUnwind (enclosure stack) := by
  induction hlength : stack.length using Nat.strongRecOn generalizing stack with
  | _ n ih =>
      rcases hcarries.top hstacked with hcatches | hunwind | ⟨entries, below, rfl, hin, hbelow⟩
      · exact Or.inl (hcatches.enclosure_eq.symm ▸ hcatches)
      · exact Or.inr (hunwind.enclosure_eq.symm ▸ hunwind)
      · rcases hin.top hbelow with ⟨f, rest, rfl, huser, hrest, hstackedRest⟩
        rw [enclosure_of_isUser rfl, enclosure_of_isUser huser]
        apply ih rest.length _ hstackedRest hrest rfl
        rw [<- hlength, List.length_cons, List.length_cons]
        omega

theorem InCode.enclosed (hstacked : Stacked .fiber stack) (hin : InCode stack) :
    Catches (enclosure stack) ∨ InUnwind (enclosure stack) := by
  rcases hin.top hstacked with ⟨f, below, rfl, huser, hcarries, hbelow⟩
  rw [enclosure_of_isUser huser]
  exact hcarries.enclosed hbelow

/-- What is dropped without an unwind belongs to code, or was captured and never called. -/
theorem CarriesDrop.enclosed {entries : List Entry} (hstacked : Stacked .fiber below)
    (hcarries : CarriesDrop entries below) :
    Catches (enclosure below) ∨ InUnwind (enclosure below) ∨
      exists lease requester, below = [.base (.leaving lease (.unwound requester))] ∧
        entries.all Entry.isPlain = true := by
  unfold CarriesDrop at hcarries
  split at hcarries
  · rename_i lease requester rest
    rcases hstacked with ⟨-, -, rfl⟩
    exact Or.inr (Or.inr ⟨lease, requester, rfl, hcarries⟩)
  · cases hstacked.1
  · cases hstacked.1
  · exact (InCode.enclosed hstacked hcarries).imp_right Or.inl

theorem InDrop.top (hin : InDrop stack) :
    exists entries cause below, stack = .discarding entries cause :: below := by
  unfold InDrop at hin
  split at hin
  · exact ⟨_, _, _, rfl⟩
  · exact False.elim hin

/-- All user code is enclosed, but for what a fiber drops that was never called. -/
theorem Stacked.enclosed (hstacked : Stacked .fiber (f :: below)) (huser : f.isUser = true) :
    Catches (enclosure (f :: below)) ∨ InUnwind (enclosure (f :: below)) ∨
      exists lease requester, DropsCaptured lease requester (f :: below) := by
  rw [enclosure_of_isUser huser]
  cases f with
  | code a => exact (hstacked.1.enclosed hstacked.2).imp_right Or.inl
  | calling call a => exact (hstacked.2.2.1.enclosed hstacked.2.2.2).imp_right Or.inl
  | discarding entries cause =>
      cases cause with
      | some cause => cases huser
      | none =>
          rcases hstacked.1.enclosed hstacked.2 with hcatches | hin | ⟨lease, requester, rfl, hplain⟩
          · exact Or.inl hcatches
          · exact Or.inr (Or.inl hin)
          · exact Or.inr (Or.inr ⟨lease, requester, .running entries hplain⟩)
  | dropping =>
      rcases hstacked with ⟨hin, hbelow⟩
      rcases hin.top with ⟨entries, cause, rest, rfl⟩
      cases cause with
      | some cause => exact Or.inr (Or.inl (.intro entries cause rest))
      | none =>
          rw [enclosure_of_isUser rfl]
          rcases hbelow.1.enclosed hbelow.2 with hcatches | hin | ⟨lease, requester, rfl, hplain⟩
          · exact Or.inl hcatches
          · exact Or.inr (Or.inl hin)
          · exact Or.inr (Or.inr ⟨lease, requester, .waiting entries hplain⟩)
  | onTop source | base stage | root stage => cases huser

/-- Above the end of a fiber there is nothing but what was never called. -/
theorem Stacked.of_mem_leaving (hstacked : Stacked k stack)
    (hmem : .base (.leaving lease ending) ∈ stack) :
    stack = [.base (.leaving lease ending)] ∨
      exists requester, ending = .unwound requester ∧ DropsCaptured lease requester stack := by
  induction stack with
  | nil => cases hmem
  | cons f below ih =>
      have hbelow : Frame.base (.leaving lease ending) ≠ f -> Stacked k below ->
          below = [.base (.leaving lease ending)] ∨
            exists requester, ending = .unwound requester ∧ DropsCaptured lease requester below :=
        fun hne hrest => ih hrest ((List.mem_cons.mp hmem).resolve_left hne)
      cases f with
      | base stage =>
          rcases hstacked with ⟨-, -, rfl⟩
          exact Or.inl (congrArg (· :: []) (List.mem_singleton.mp hmem).symm)
      | root stage =>
          rcases hstacked with ⟨-, rfl⟩
          cases List.mem_singleton.mp hmem
      | code a =>
          rcases hbelow (by simp) hstacked.2 with rfl | ⟨requester, -, hdrops⟩
          · exact False.elim hstacked.1
          · cases hdrops <;> exact False.elim hstacked.1
      | calling call a =>
          rcases hbelow (by simp) hstacked.2.2.2 with rfl | ⟨requester, -, hdrops⟩
          · exact False.elim hstacked.2.2.1
          · cases hdrops <;> exact False.elim hstacked.2.2.1
      | onTop source =>
          rcases hbelow (by simp) hstacked.2 with rfl | ⟨requester, -, hdrops⟩
          · cases hstacked.1
          · cases hdrops <;> cases hstacked.1
      | dropping =>
          rcases hbelow (by simp) hstacked.2 with rfl | ⟨requester, rfl, hdrops⟩
          · exact False.elim hstacked.1
          · cases hdrops with
            | running entries hplain => exact Or.inr ⟨requester, rfl, .waiting entries hplain⟩
            | waiting entries hplain => exact False.elim hstacked.1
      | discarding entries cause =>
          cases cause with
          | some cause =>
              rcases hbelow (by simp) hstacked.2.2 with rfl | ⟨requester, -, hdrops⟩
              · rcases hstacked.2.1 with hin | hin
                · exact False.elim hin
                · exact False.elim hin
              · cases hdrops <;> rcases hstacked.2.1 with hin | hin <;> exact False.elim hin
          | none =>
              rcases hbelow (by simp) hstacked.2 with rfl | ⟨requester, -, hdrops⟩
              · cases ending with
                | returned next => exact False.elim hstacked.1
                | unwound requester =>
                    exact Or.inr ⟨requester, rfl, .running entries hstacked.1⟩
              · cases hdrops <;> exact False.elim hstacked.1

end Enclosure

namespace State

variable {s s' : State} {lost : List ContextId} {c : ContextId} {cause : Unwind}
  {stack below : List Frame}

/-- The stack of a context, whether it runs or is parked. -/
def stackOf (s : State) (c : ContextId) : Option (List Frame) :=
  if c = s.running then some s.stack else s.parked? c

theorem Sound.stackOf (h : s.Sound lost) (hstack : s.stackOf c = some stack) :
    Stacked (homeOf c) stack ∨ stack = [.base .unborn] := by
  unfold State.stackOf at hstack
  split at hstack
  · rename_i hc
    cases hstack
    rw [hc]
    exact h.stands.stacked.imp_right And.left
  · rename_i hc
    exact Or.inl (h.parked c stack hc hstack).1

/-! ## Unwinds on their way -/

/-- What becomes of an unwind at a boundary that it has come to. -/
inductive EndsAt (s : State) : Unwind -> List Frame -> Prop where
  /-- It is handed on to what the function has run on top of. -/
  | redelivered {requester source : ContextId} {below : List Frame} :
      s.step = .active
          { s with stack := below, control := .landed requester (.message .eviction) } ->
        EndsAt s (.forced requester) (.onTop source :: below)
  | unwound {requester : ContextId} {lease : Lease} :
      s.step = .active { s with stack := [.base (.leaving lease (.unwound requester))] } ->
        EndsAt s (.forced requester) [.base (.busy lease)]
  | onTopPanicked {payload : Payload} {text : String} {source : ContextId} {below : List Frame}
      {cause : Abort} :
      payload.Says text -> s.step = .halted (.aborted cause) s.world ->
        cause.message? = some ("on-top function panicked: " ++ text) ->
        EndsAt s (.panic payload) (.onTop source :: below)
  | bodyPanicked {payload : Payload} {text : String} {lease : Lease} {cause : Abort} :
      payload.Says text -> s.step = .halted (.aborted cause) s.world ->
        cause.message? = some ("fiber body panicked: " ++ text) ->
        EndsAt s (.panic payload) [.base (.busy lease)]

section Unwinding

variable (hrun : s.control = .run)

include hrun

theorem step_of_unwind (hstack : s.stack = .discarding [] (some cause) :: below) :
    s.step = s.unwindInto cause below := by
  simp only [step, hrun, run, hstack, runDiscarding]

/-- An unwind passes user code, unless a block of the code attempts what it comes from. -/
theorem Sound.passes {f : Frame} (h : s.Sound lost)
    (hstack : s.stack = .discarding [] (some cause) :: f :: below) (huser : f.isUser = true) :
    exists s', s.step = .active s' ∧
      ((exists entries rest, s'.stack = .discarding entries (some cause) :: rest ∧
          enclosure rest = enclosure below) ∨
        exists a a' swallow code outer, f = .code a ∧
          a.blocks = ⟨.attempt swallow, code, []⟩ :: outer ∧ s'.stack = .code a' :: below) := by
  have hstands := h.stands
  simp only [Stands, hrun, hstack] at hstands
  have hcarries : CarriesUnwind (f :: below) := hstands.1.2.1
  rw [step_of_unwind hrun hstack]
  cases f with
  | code a =>
      simp only [unwindInto, unwindCode]
      split
      · exact ⟨_, rfl, Or.inl ⟨_, _, rfl, rfl⟩⟩
      · exact ⟨_, rfl, Or.inl ⟨_, _, rfl, rfl⟩⟩
      · rename_i b outer hresult hblocks
        split
        · exact ⟨_, rfl, Or.inl ⟨_, _, rfl, rfl⟩⟩
        · rename_i hentries
          have hkind : forall swallow, b.kind = .attempt swallow ->
              a.blocks = ⟨.attempt swallow, b.code, []⟩ :: outer := by
            intro swallow hkind
            rw [hblocks, <- hkind, <- hentries]
          split
          · rename_i swallow payload heq
            exact ⟨_, rfl, Or.inr ⟨a, _, swallow, b.code, outer, rfl, hkind _ heq, rfl⟩⟩
          · rename_i requester heq
            exact ⟨_, rfl, Or.inr ⟨a, _, true, b.code, outer, rfl, hkind _ heq, rfl⟩⟩
          · exact ⟨_, rfl, Or.inl ⟨_, _, rfl, rfl⟩⟩
          · exact ⟨_, rfl, Or.inl ⟨_, _, rfl, rfl⟩⟩
  | calling call a =>
      cases call with
      | failBuild failure | refuse refusal slot onRefusal | store pending n =>
          exact ⟨_, rfl, Or.inl ⟨_, _, rfl, rfl⟩⟩
      | create slot | probe query reply purpose | resume host onTop target =>
          rcases hcarries with hin | hin <;> exact False.elim hin
  | discarding entries earlier =>
      cases earlier with
      | some earlier => cases huser
      | none => exact ⟨_, rfl, Or.inl ⟨_, _, rfl, rfl⟩⟩
  | dropping => rcases hcarries with hin | hin <;> exact False.elim hin
  | onTop source | base stage | root stage => cases huser

theorem Catches.endsAt (hcatches : Catches below)
    (hstack : s.stack = .discarding [] (some cause) :: below) : s.EndsAt cause below := by
  have hstep := step_of_unwind hrun hstack
  cases hcatches with
  | onTop source below =>
      cases cause with
      | forced requester => exact .redelivered hstep
      | panic payload => exact .onTopPanicked payload.says_message hstep rfl
  | body lease =>
      cases cause with
      | forced requester =>
          apply EndsAt.unwound
          rw [hstep]
          simp only [unwindInto, go, hrun]
      | panic payload => exact .bodyPanicked payload.says_message hstep rfl

/-- An unwind that has left user code is caught, unless that code was run by an earlier one. -/
theorem Sound.left (h : s.Sound lost) (hfiber : s.running ≠ mainContext)
    (hstack : s.stack = .discarding [] (some cause) :: below) (hleft : enclosure below = below) :
    Catches below ∧ s.EndsAt cause below ∨
      InUnwind below ∧ s.step = .halted (.aborted .doubleUnwind) s.world := by
  have hstands := h.stands
  simp only [Stands, hrun, hstack, homeOf, if_neg hfiber] at hstands
  rcases hstands with ⟨⟨-, hcarries, hbelow⟩, -⟩
  have henclosed : Catches below ∨ InUnwind below := by
    rw [<- hleft]
    rcases hcarries with hin | hin
    · exact InCode.enclosed hbelow hin
    · exact CarriesCode.enclosed hbelow hin
  rcases henclosed with hcatches | hunwind
  · exact Or.inl ⟨hcatches, Catches.endsAt hrun hcatches hstack⟩
  · refine Or.inr ⟨hunwind, ?_⟩
    rw [step_of_unwind hrun hstack]
    cases hunwind
    rfl

/-- A fiber that is over hands control to the context that it owes it to. -/
theorem Sound.exits {lease : Lease} {ending : Ending} (h : s.Sound lost)
    (hstack : s.stack = .base (.leaving lease ending) :: below) :
    exists s', s.step = .active s' ∧ s'.running = ending.next ∧
      s'.control = .landed s.running .exit := by
  have htoken : exists need, .token need ending.next ∈ s.holdings := by
    cases ending with
    | returned next =>
        exact ⟨.handle, by simp [holdings, pool, hstack, Frame.holdings, FiberStage.holdings,
          Ending.holdings, Ending.next]⟩
    | unwound requester =>
        exact ⟨.request, by simp [holdings, pool, hstack, Frame.holdings, FiberStage.holdings,
          Ending.holdings, Ending.next]⟩
  rcases htoken with ⟨need, hmem⟩
  rcases h.parked_of_token (List.count_pos_iff.mpr hmem) with ⟨there, hthere, hneed⟩
  simp only [step, hrun, run, hstack, runBase]
  exact ⟨_, transfer_eq_hop hthere (needOf_ne_nil hneed), rfl, rfl⟩

end Unwinding

/-- A fiber that was never called drops what its body has captured, and no unwind is raised. -/
theorem Sound.evictsIdle {requester : ContextId} {record : Record} (h : s.Sound lost)
    (hcontrol : s.control = .landed requester (.message .eviction))
    (hstack : s.stack = .base (.idle record) :: below) :
    exists s', s.step = .active s' ∧
      (s'.stack = [.base (.leaving record.lease (.unwound requester))] ∨
        DropsCaptured record.lease requester s'.stack) := by
  have hstands := h.stands
  simp only [Stands, hcontrol, hstack] at hstands
  rcases hstands with ⟨⟨-, ⟨body, hbody, hplain⟩, rfl⟩, -⟩
  simp only [step, hcontrol, land, receive, hstack, hbody]
  refine ⟨_, rfl, ?_⟩
  cases hcaptured : body.captured with
  | nil =>
      left
      simp [dropFirst, Closure.leftover, hcaptured]
  | cons e es =>
      right
      rw [hcaptured] at hplain
      simpa [dropFirst, Closure.leftover, hcaptured] using DropsCaptured.running (e :: es) hplain

/-! ## Unwinds that are asked for -/

/-- Control has just come to a context from the end of a fiber. -/
def HandsOver (s : State) (requester : ContextId) : Prop :=
  s.running = requester ∧ exists fiber, s.control = .landed fiber .exit

/-- A forced unwind goes on until it is discarded or hands control to who has asked for it. -/
theorem Move.requestsOf {requester : ContextId} (h : s.Sound lost) (hm : s.Move s')
    (hpending : 0 < s.requestsOf requester) :
    0 < s'.requestsOf requester ∨ requester ∈ s.swallows ∨ s'.HandsOver requester := by
  rcases hm.count_holdings h with ⟨used, given, hcount, hexits⟩
  have htoken := hcount (.token .request requester)
  rw [count_made, count_gone, count_lost] at htoken
  by_cases hused : (.request, requester) ∈ used
  · rcases hexits requester hused with ⟨hrunning, hcontrol⟩
    exact Or.inr (Or.inr ⟨hrunning, _, hcontrol⟩)
  · by_cases hswallowed : requester ∈ s.swallows
    · exact Or.inr (Or.inl hswallowed)
    · left
      have hkept : (tokens used).count (.token .request requester) = 0 := by
        rw [List.count_eq_zero]
        intro hmem
        rcases List.mem_map.mp hmem with ⟨⟨need, c⟩, hx, heq⟩
        cases heq
        exact hused hx
      rw [List.count_eq_zero.mpr hswallowed, hkept] at htoken
      simp only [State.requestsOf] at hpending ⊢
      omega

/-! ## All states -/

/-- What is known of unwinds in a state. -/
structure Bounded (s : State) : Prop where
  /-- Where no unwind is in progress, user code of a fiber is enclosed by what catches unwinds. -/
  enclosed : forall c f below, c ≠ mainContext -> s.stackOf c = some (f :: below) ->
    f.isUser = true -> Calm (f :: below) ->
      Catches (enclosure (f :: below)) ∨
        exists lease requester, DropsCaptured lease requester (f :: below)
  /-- No unwind comes up where a fiber is over or drops what was never called. -/
  leaving : forall c stack lease ending, s.stackOf c = some stack ->
    .base (.leaving lease ending) ∈ stack -> Calm stack
  idle : forall requester record below, s.control = .landed requester (.message .eviction) ->
    s.stack = .base (.idle record) :: below ->
      exists s', s.step = .active s' ∧
        (s'.stack = [.base (.leaving record.lease (.unwound requester))] ∨
          DropsCaptured record.lease requester s'.stack)
  /-- An unwind stays within what encloses the code that it passes. -/
  passes : forall cause f below, s.control = .run ->
    s.stack = .discarding [] (some cause) :: f :: below -> f.isUser = true ->
      exists s', s.step = .active s' ∧
        ((exists entries rest, s'.stack = .discarding entries (some cause) :: rest ∧
            enclosure rest = enclosure below) ∨
          exists a a' swallow code outer, f = .code a ∧
            a.blocks = ⟨.attempt swallow, code, []⟩ :: outer ∧ s'.stack = .code a' :: below)
  left : forall cause below, s.control = .run -> s.running ≠ mainContext ->
    s.stack = .discarding [] (some cause) :: below -> enclosure below = below ->
      Catches below ∧ s.EndsAt cause below ∨
        InUnwind below ∧ s.step = .halted (.aborted .doubleUnwind) s.world
  exits : forall lease ending below, s.control = .run ->
    s.stack = .base (.leaving lease ending) :: below ->
      exists s', s.step = .active s' ∧ s'.running = ending.next ∧
        s'.control = .landed s.running .exit
  /-- An abort without a text comes of an unwind within an unwind of the same stack. -/
  aborted : forall cause w, s.step = .halted (.aborted cause) w -> cause.message? = none ->
    exists inner earlier entries below,
      s.stack = .discarding [] (some inner) :: .discarding entries (some earlier) :: below

theorem Sound.bounded (h : s.Sound lost) : s.Bounded where
  enclosed := by
    intro c f below hc hstack huser hcalm
    rcases h.stackOf hstack with hstacked | hunborn
    · rw [homeOf, if_neg hc] at hstacked
      rcases hstacked.enclosed huser with hcatches | hin | hdrops
      · exact Or.inl hcatches
      · exact absurd hin hcalm.not_inUnwind
      · exact Or.inr hdrops
    · cases hunborn
      cases huser
  leaving := by
    intro c stack lease ending hstack hmem
    rcases h.stackOf hstack with hstacked | rfl
    · rcases hstacked.of_mem_leaving hmem with rfl | ⟨requester, -, hdrops⟩
      · simp [Calm, Frame.isUnwinding]
      · exact hdrops.calm
    · simp at hmem
  idle := fun _ _ _ hcontrol hstack => h.evictsIdle hcontrol hstack
  passes := fun _ _ _ hrun hstack huser => h.passes hrun hstack huser
  left := fun _ _ hrun hfiber hstack hleft => h.left hrun hfiber hstack hleft
  exits := fun _ _ _ hrun hstack => h.exits hrun hstack
  aborted := by
    intro cause w hstep hnone
    have hends := (h.halts hstep).1
    generalize houtcome : Outcome.aborted cause = outcome at hends
    cases hends with
    | drained =>
        rename_i panic _ _ _ _
        cases panic <;> cases houtcome
    | doubleUnwind hrun hstack => exact ⟨_, _, _, _, hstack⟩
    | bodyPanicked | onTopPanicked | emptyResult | nativeStackUnwound =>
        cases houtcome
        cases hnone

end State

theorem Program.Reaches.requestsOf {p : Program} {past later earlier : List State} {s t : State}
    {requester : ContextId} (h : p.Reaches past s) (hpast : past = later ++ t :: earlier)
    (hpending : 0 < t.requestsOf requester) :
    0 < s.requestsOf requester ∨
      (exists u, u ∈ later ++ [t] ∧ requester ∈ u.swallows) ∨
        exists u, u ∈ s :: later ∧ u.HandsOver requester := by
  induction h generalizing later with
  | start => simp at hpast
  | step hbefore hstep ih =>
      rename_i past before after
      have hsound := hbefore.sound
      have hmove := (hsound.move hstep).1
      cases later with
      | nil =>
          simp only [List.nil_append, List.cons.injEq] at hpast
          rcases hpast with ⟨rfl, -⟩
          rcases hmove.requestsOf hsound hpending with hstill | hswallowed | hhanded
          · exact Or.inl hstill
          · exact Or.inr (Or.inl ⟨before, List.mem_singleton.mpr rfl, hswallowed⟩)
          · exact Or.inr (Or.inr ⟨after, List.mem_singleton.mpr rfl, hhanded⟩)
      | cons first later =>
          simp only [List.cons_append, List.cons.injEq] at hpast
          rcases hpast with ⟨rfl, hpast⟩
          rcases ih hpast with hbefore | ⟨u, hu, hswallowed⟩ | ⟨u, hu, hhanded⟩
          · rcases hmove.requestsOf hsound hbefore with hstill | hswallowed | hhanded
            · exact Or.inl hstill
            · exact Or.inr (Or.inl ⟨before, List.mem_cons_self, hswallowed⟩)
            · exact Or.inr (Or.inr ⟨after, List.mem_cons_self, hhanded⟩)
          · exact Or.inr (Or.inl ⟨u, List.mem_cons_of_mem _ hu, hswallowed⟩)
          · exact Or.inr (Or.inr ⟨u, List.mem_cons_of_mem _ hu, hhanded⟩)

end Fibers
