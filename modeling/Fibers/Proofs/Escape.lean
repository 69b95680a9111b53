import Fibers.Proofs.Build.Failure

/-!
# Unwinds that nothing catches

A fiber that is unwound before its body is called drops what the body has captured at the very end of
its stack, below which no boundary lies that catches an unwind.  A program's closures capture nothing
that does anything when it is dropped.  Here their guards may do what they like, and an unwind that
comes out of one of them aborts the run.

No step looks below the entries that are left.  So until they are gone the run takes the same course
as one in which the same entries are dropped by a call that fails, in the midst of an unwind of the
same fiber, and that is a run like any other.
-/

namespace Fibers

namespace State

variable {s t t' u v : State} {lost : List ContextId} {c requester : ContextId} {lease : Lease}
  {low low' stack below : List Frame} {es es' : List Entry} {cause : Option Unwind}
  {since : List State}

/-! ## Entries above other frames -/

theorem stackOf_atop (base : List LogEntry) (hstack : stack ≠ []) :
    (u.atop c base low).stackOf c = some (stack ++ low) ↔ u.stackOf c = some stack := by
  by_cases hc : c = u.running
  · subst hc
    have hlaid : (u.atop u.running base low).stackOf u.running = some (u.stack ++ low) :=
      (if_pos rfl).trans (congrArg some lay_self)
    rw [hlaid, stackOf_running, Option.some.injEq, Option.some.injEq, List.append_cancel_right_eq]
  · have hatop : c ≠ (u.atop c base low).running := hc
    rw [stackOf_of_ne hc, stackOf_of_ne hatop, parked?_atop]
    cases u.parked? c with
    | none => simp
    | some there =>
        cases there with
        | nil => simp [underlay, hstack]
        | cons top rest =>
            simp only [Option.map_some, underlay, lay_self, Option.some.injEq]
            rw [<- List.cons_append, List.append_cancel_right_eq]

theorem hasLeft_atop (base : List LogEntry) :
    (u.atop c base low).HasLeft c low es cause ↔ u.HasLeft c [] es cause := by
  have hstack : forall above : List Frame,
      (u.atop c base low).stackOf c = some (above ++ .discarding es cause :: low) ↔
        u.stackOf c = some (above ++ [.discarding es cause]) := by
    intro above
    have hlaid := @stackOf_atop u c low (above ++ [.discarding es cause]) base (by simp)
    rwa [List.append_assoc] at hlaid
  simp only [HasLeft, hstack]

theorem dropAt?_eq_some {depth : Nat} {e : Entry} : u.dropAt? c depth = some e ↔
    u.running = c ∧ u.control = .run ∧ exists rest cause below,
      u.stack = .discarding (e :: rest) cause :: below ∧ below.length + 1 = depth := by
  unfold dropAt? dropping?
  constructor
  · intro hdrop
    split at hdrop
    · rename_i hplace
      split at hdrop
      · rename_i e' rest cause below hcontrol hstack
        cases hdrop
        rw [hstack] at hplace
        exact ⟨hplace.1, hcontrol, rest, cause, below, hstack, hplace.2⟩
      · cases hdrop
    · cases hdrop
  · rintro ⟨hrunning, hcontrol, rest, cause, below, hstack, hdepth⟩
    rw [hstack, hcontrol]
    exact if_pos ⟨hrunning, hdepth⟩

theorem escapeAt?_eq_some {depth : Nat} {escaped : Unwind} : u.escapeAt? c depth = some escaped ↔
    u.running = c ∧ u.control = .run ∧ exists es below,
      u.stack = .discarding [] (some escaped) :: .discarding es none :: below ∧
        below.length + 1 = depth := by
  unfold escapeAt?
  constructor
  · intro hescape
    split at hescape
    · rename_i escaped' es below hcontrol hstack
      split at hescape
      · rename_i hplace
        cases hescape
        exact ⟨hplace.1, hcontrol, es, below, hstack, hplace.2⟩
      · cases hescape
    · cases hescape
  · rintro ⟨hrunning, hcontrol, es, below, hstack, hdepth⟩
    rw [hstack, hcontrol]
    exact if_pos ⟨hrunning, hdepth⟩

/-- Where as many frames lie below as were put there, those are the ones. -/
theorem stack_atop_eq_iff {above : List Frame} {base : List LogEntry} (hc : u.running = c) :
    (exists below, (u.atop c base low).stack = above ++ below ∧ below.length + 1 = low.length + 1) ↔
      exists below, u.stack = above ++ below ∧ below.length + 1 = 1 := by
  have hlaid : (u.atop c base low).stack = u.stack ++ low := hc ▸ lay_self
  rw [hlaid]
  constructor
  · rintro ⟨below, hstack, hlength⟩
    have habove := List.append_inj_left' hstack (Nat.succ.inj hlength).symm
    exact ⟨[], habove.trans (List.append_nil above).symm, rfl⟩
  · rintro ⟨below, hstack, hlength⟩
    rw [List.length_eq_zero_iff.mp (Nat.succ.inj hlength), List.append_nil] at hstack
    exact ⟨low, congrArg (· ++ low) hstack, rfl⟩

theorem dropAt?_atop (base : List LogEntry) :
    (u.atop c base low).dropAt? c (low.length + 1) = u.dropAt? c 1 := by
  ext e
  rw [dropAt?_eq_some, dropAt?_eq_some]
  refine and_congr_right fun hc => and_congr_right fun hcontrol => ?_
  refine exists_congr fun rest => exists_congr fun cause => ?_
  exact @stack_atop_eq_iff u c low [.discarding (e :: rest) cause] base hc

theorem escapeAt?_atop (base : List LogEntry) :
    (u.atop c base low).escapeAt? c (low.length + 1) = u.escapeAt? c 1 := by
  ext escaped
  rw [escapeAt?_eq_some, escapeAt?_eq_some]
  refine and_congr_right fun hc => and_congr_right fun hcontrol => exists_congr fun es => ?_
  exact @stack_atop_eq_iff u c low [.discarding [] (some escaped), .discarding es none] base hc

theorem atEnd_atop (base : List LogEntry) :
    (u.atop c base low).AtEnd c low cause ↔ u.AtEnd c [] cause := by
  have hstack : u.running = c -> ((u.atop c base low).stack =
      (cause.toList.map fun cause => .discarding [] (some cause)) ++ low ↔
        u.stack = (cause.toList.map fun cause => .discarding [] (some cause)) ++ []) := by
    intro hc
    rw [show (u.atop c base low).stack = u.stack ++ low from hc ▸ lay_self, List.append_nil,
      List.append_cancel_right_eq]
  constructor
  · intro hend
    exact ⟨hend.running, hend.control, (hstack hend.running).mp hend.stack⟩
  · intro hend
    exact ⟨hend.running, hend.control, (hstack hend.running).mpr hend.stack⟩

/-- What a step makes of entries does not depend on what lies below them. -/
theorem Lessens.relay (h : (u.atop c [] low').Lessens (v.atop c [] low') c low' es cause) :
    (u.atop c [] low).Lessens (v.atop c [] low) c low es cause := by
  have hdrops := (@dropAt?_atop u c low []).trans (@dropAt?_atop u c low' []).symm
  have hescapes := (@escapeAt?_atop u c low []).trans (@escapeAt?_atop u c low' []).symm
  cases h with
  | goes hdrop hescape hes hcause hleft =>
      refine .goes (hdrops.trans hdrop) (hescapes.trans hescape) hes hcause ?_
      exact (hasLeft_atop []).mpr ((hasLeft_atop []).mp hleft)
  | ends hes hcause hdrop hescape hend =>
      refine .ends hes hcause (hdrops.trans hdrop) (hescapes.trans hescape) ?_
      exact (atEnd_atop []).mpr ((atEnd_atop []).mp hend)
  | leaves hes hcause hend =>
      exact .leaves hes hcause ((atEnd_atop []).mpr ((atEnd_atop []).mp hend))

/-! ## Steps above other frames -/

/-- What is being dropped is dropped by a step of the running context's own. -/
theorem Sound.run_of_discarding (h : s.Sound lost) (hstack : s.stack = .discarding es cause :: below) :
    s.control = .run := by
  cases hcontrol : s.control with
  | run => rfl
  | landed source signal =>
      have hstands := h.stands
      rw [Stands, hcontrol, hstack] at hstands
      cases signal with
      | message message =>
          cases message with
          | handover | farewell => rcases hstands.2 with hneed | hneed <;> cases hneed
          | eviction | query => cases hstands.2
      | onTop => cases hstands.2
      | exit => rcases hstands.2 with hneed | hneed <;> cases hneed
      | start record => cases hstands.2.1

/-- The state would be in order if a context's stack had other lowest frames than it has. -/
def Borne (t : State) (c : ContextId) (low low' : List Frame) : Prop :=
  exists u : State, t = u.atop c [] low ∧ (u.atop c [] low').Sane

theorem shields_of_length (h : 1 < stack.length) : Shields stack := by
  unfold Shields
  split
  · cases h
  · simp at h
  · simp at h
  · trivial

/-- A step looks at what lies below the entries only if an unwind has come out of the last of them. -/
theorem HasLeft.shields (hleft : u.HasLeft u.running [] es cause)
    (hrun : forall rest, u.stack = .discarding [] cause :: rest -> u.control = .run) :
    Shields u.stack ∨ exists escaped, u.AtEnd u.running [] (some escaped) := by
  rcases hleft with ⟨above, hover, habove⟩
  rw [stackOf_running, Option.some.injEq] at habove
  cases above with
  | nil =>
      cases es with
      | cons e es => exact Or.inl (habove ▸ trivial)
      | nil =>
          cases cause with
          | none => exact Or.inl (habove ▸ trivial)
          | some escaped => exact Or.inr ⟨escaped, rfl, hrun _ habove, habove⟩
  | cons f above => exact Or.inl (shields_of_length (by simp [habove]))

/-- The step of such a state is that of the state with the other frames. -/
theorem Borne.step (h : t.Borne c low low') (hleft : t.HasLeft c low es cause) :
    (exists escaped, t.AtEnd c low (some escaped)) ∨
      exists u : State, t = u.atop c [] low ∧ (u.atop c [] low').Sane ∧
        t.step = u.step.atop c [] low ∧ (u.atop c [] low').step = u.step.atop c [] low' := by
  rcases h with ⟨u, rfl, lost, hsound⟩
  have hbare := (hasLeft_atop []).mp hleft
  have hthere : (u.atop c [] low').HasLeft c low' es cause := (hasLeft_atop []).mpr hbare
  have hlisted : c ∈ contextKeys u.contexts := by
    rcases hthere with ⟨above, -, hstack⟩
    have hkey := hsound.mem_contextKeys_of_stackOf hstack
    rwa [show contextKeys (u.atop c [] low').contexts = _ from contextKeys_underlayAll] at hkey
  have hshields : (exists escaped, (u.atop c [] low).AtEnd c low (some escaped)) ∨
      (u.running = c -> Shields u.stack) := by
    by_cases hc : u.running = c
    · subst hc
      have hrun : forall rest, u.stack = .discarding [] cause :: rest -> u.control = .run := by
        intro rest hrest
        have hlaid : (u.atop u.running [] low').stack = .discarding [] cause :: (rest ++ low') := by
          rw [show (u.atop u.running [] low').stack = _ from lay_self, hrest]
          rfl
        exact hsound.run_of_discarding hlaid
      rcases hbare.shields hrun with hshields | ⟨escaped, hend⟩
      · exact Or.inr fun _ => hshields
      · exact Or.inl ⟨escaped, (atEnd_atop []).mpr hend⟩
    · exact Or.inr fun heq => absurd heq hc
  rcases hshields with hend | hshields
  · exact Or.inl hend
  · exact Or.inr ⟨u, rfl, ⟨lost, hsound⟩, hsound.step_atop [] hlisted hshields [] low,
      hsound.step_atop [] hlisted hshields [] low'⟩

/-! ## Fibers that were not called -/

/-- What lies below the entries that a fiber drops which was not called. -/
def outside (lease : Lease) (requester : ContextId) : List Frame :=
  [.base (.leaving lease (.unwound requester))]

/--
What could lie below them instead: a call that fails, by what a guard does that is dropped when the
same fiber is unwound for the same context.
-/
def inside (lease : Lease) (requester : ContextId) : List Frame :=
  [.calling (.failBuild (.stackTooSmall 0 0)) (.ofCode .cleanup "" []),
    .discarding [] (some (.forced requester)), .base (.busy lease)]

/-- The state of a fiber that was not called, once it is to be unwound, with entries to drop. -/
def evicted (s : State) (lease : Lease) (requester : ContextId) (es : List Entry) : State :=
  { s with stack := dropFirst es (outside lease requester), control := .run }

theorem step_of_evicted {record : Record} {f : Closure}
    (hcontrol : s.control = .landed requester (.message .eviction))
    (hstack : s.stack = [.base (.idle record)]) (hbody : record.body = some f) :
    s.step = .active (s.evicted record.lease requester f.captured) := by
  simp only [State.step, hcontrol, land, receive, hstack, hbody, Closure.leftover]
  rfl

theorem stackHoldings_outside (harms : List.Forall₂ Entry.Arms es es') :
    stackHoldings (dropFirst es' (inside lease requester)) =
      stackHoldings (dropFirst es (outside lease requester)) := by
  have hsame := entryHoldings_of_arms harms
  have hbelow : stackHoldings (inside lease requester) = stackHoldings (outside lease requester) := rfl
  cases harms with
  | nil => exact hbelow
  | cons =>
      simp only [dropFirst, stackHoldings, List.flatMap_cons, Frame.holdings, hsame] at hbelow ⊢
      rw [hbelow]

/-- With entries to drop, a fiber that was not called stands for what it would within a call. -/
theorem Sound.inside (h : (s.evicted lease requester es).Sound lost)
    (harms : List.Forall₂ Entry.Arms es es') :
    Sound lost { s.evicted lease requester es with
      stack := dropFirst es' (State.inside lease requester) } := by
  have hhome : homeOf s.running = .fiber := by
    have hstands := h.stands
    simp only [Stands, evicted] at hstands
    cases es with
    | nil => exact hstands.1.1
    | cons => exact hstands.1.2.1
  have hstacked : Stacked (homeOf s.running) (State.inside lease requester) :=
    ⟨trivial, rfl, trivial, hhome, Or.inr trivial, hhome, trivial, rfl⟩
  refine h.restack rfl (hstacked.dropFirst trivial) (.dropFirst trivial) ?_ ?_
  · exact stackHoldings_outside harms
  · simp only [evicted, leaseOf_dropFirst]
    rfl

/-- Once they are gone, it is at its end. -/
theorem Sound.outside (h : s.Sound lost) (hrun : s.control = .run)
    (hstack : s.stack = State.inside lease requester) :
    Sound lost { s with stack := State.outside lease requester } := by
  have hhome : homeOf s.running = .fiber := by
    have hstands := h.stands
    simp only [Stands, hrun, hstack] at hstands
    exact hstands.1.2.2.2.1
  refine h.restack hrun ⟨hhome, trivial, rfl⟩ trivial ?_ ?_
  · rw [hstack]
    rfl
  · rw [hstack]
    rfl

/-! ## What the entries come to -/

/-- The entries are being dropped, or they are gone and the state is in order. -/
inductive Empties (t : State) (c : ContextId) (lease : Lease) (requester : ContextId)
    (es : List Entry) (since : List State) : Prop where
  | going {rest : List Entry} {cause : Option Unwind} :
      t.Borne c (outside lease requester) (inside lease requester) ->
        t.HasLeft c (outside lease requester) rest cause ->
          t.Course c (outside lease requester) es since -> Empties t c lease requester es since
  | gone {after during : List State} {u : State} :
      t.Sane -> t :: since = after ++ u :: during -> u.AtEnd c (outside lease requester) none ->
        u.Course c (outside lease requester) es during -> Empties t c lease requester es since

/-- Where the call ends no entries are left. -/
theorem AtEnd.not_hasLeft (h : t.AtEnd c low none) : ¬ t.HasLeft c low es cause := by
  rintro ⟨above, -, hstack⟩
  rw [<- h.running, stackOf_running, h.stack, Option.some.injEq] at hstack
  have hlength := congrArg List.length hstack
  simp only [Option.toList_none, List.map_nil, List.nil_append, List.length_append,
    List.length_cons] at hlength
  omega

theorem Empties.course (h : t.Empties c lease requester es since) :
    t.Course c (outside lease requester) es since := by
  cases h with
  | going hborne hleft hcourse => exact hcourse
  | gone hsane hsince hend hcourse =>
      cases hcourse with
      | going hleft => exact absurd hleft hend.not_hasLeft
      | ended hduring hend' hes hescaped =>
          rename_i after during u after' during' u' cause
          have hall : t :: since = (after ++ after') ++ u' :: during' := by
            rw [hsince, hduring, List.append_assoc]
          exact .ended hall hend' hes hescaped

/-- An unwind that has come out of a drop meets no boundary. -/
theorem AtEnd.uncaught {escaped : Unwind}
    (h : t.AtEnd c (outside lease requester) (some escaped)) :
    t.step = .halted (.aborted .doubleUnwind) t.world := by
  rw [step_of_unwind h.control h.stack]
  rfl

/-- Without one, the fiber is at its end, which is in order. -/
theorem Sound.ended (h : (u.atop c [] (State.inside lease requester)).Sound lost)
    (hend : (u.atop c [] (State.outside lease requester)).AtEnd c
      (State.outside lease requester) none) :
    (u.atop c [] (State.outside lease requester)).Sound lost := by
  rcases (atEnd_atop []).mp hend with ⟨rfl, hcontrol, hstack⟩
  have hkeys : (contextKeys u.contexts).Nodup := by
    have hlaid := h.keys
    rwa [show contextKeys (u.atop u.running [] _).contexts = _ from contextKeys_underlayAll] at hlaid
  have hlisted : u.parked? u.running = some [] := by
    have hlaid := h.listed
    rw [parked?_atop] at hlaid
    rcases Option.map_eq_some_iff.mp hlaid with ⟨there, hthere, hnil⟩
    cases there with
    | nil => exact hthere
    | cons top rest => cases hnil
  rw [atop_running hkeys hlisted, hstack] at h ⊢
  exact h.outside hcontrol rfl

/-- The entries become fewer as they would within a call. -/
theorem Borne.lessens {rest : List Entry}
    (hborne : t.Borne c (outside lease requester) (inside lease requester))
    (hleft : t.HasLeft c (outside lease requester) rest cause) (hstep : t.step = .active t') :
    exists v : State, t' = v.atop c [] (outside lease requester) ∧
      (v.atop c [] (inside lease requester)).Sane ∧
        forall rest cause, t.HasLeft c (outside lease requester) rest cause ->
          t.Lessens t' c (outside lease requester) rest cause := by
  rcases hborne.step hleft with ⟨escaped, hend⟩ | ⟨u, rfl, ⟨lost, hsound⟩, hout, hin⟩
  · cases hstep.symm.trans hend.uncaught
  · rw [hstep] at hout
    cases hnext : u.step with
    | halted outcome w =>
        rw [hnext] at hout
        cases hout
    | active v =>
        rw [hnext] at hout hin
        cases hout
        refine ⟨v, rfl, ⟨_, (hsound.move hin).2⟩, fun rest cause hleft => ?_⟩
        have hthere : (u.atop c [] (inside lease requester)).HasLeft c (inside lease requester) rest
            cause :=
          (hasLeft_atop []).mpr ((hasLeft_atop []).mp hleft)
        exact (hsound.lessens rfl hthere hin).relay

theorem Empties.step (h : t.Empties c lease requester es since) (hstep : t.step = .active t') :
    t'.Empties c lease requester es (t :: since) := by
  cases h with
  | gone hsane hsince hend hcourse =>
      rcases hsane with ⟨lost, hsound⟩
      rw [hsince]
      exact .gone ⟨_, (hsound.move hstep).2⟩ (List.cons_append ..).symm hend hcourse
  | @going rest cause hborne hleft hcourse =>
      rcases hborne.lessens hleft hstep with ⟨v, rfl, ⟨lost, hsound⟩, hlessens⟩
      have hafter := hcourse.step hlessens
      cases hlessens rest cause hleft with
      | goes hdrop hescape hes hcause hthere => exact .going ⟨v, rfl, lost, hsound⟩ hthere hafter
      | ends hes hcause hdrop hescape hend =>
          exact @gone _ _ _ _ _ _ [] _ _ ⟨lost, hsound.ended hend⟩ rfl hend hafter
      | leaves hes hcause hend =>
          subst hcause
          cases hstep.symm.trans hend.uncaught

theorem Sound.empties (h : (s.evicted lease requester es).Sound lost)
    (harms : List.Forall₂ Entry.Arms es es') :
    (s.evicted lease requester es').Empties s.running lease requester es' [] := by
  cases harms with
  | nil =>
      have hend : (s.evicted lease requester []).AtEnd s.running (State.outside lease requester) none :=
        ⟨rfl, rfl, rfl⟩
      exact @Empties.gone _ _ _ _ _ _ [] _ _ ⟨lost, h⟩ rfl hend
        (@Course.ended _ _ _ _ _ [] [] _ _ rfl hend rfl rfl)
  | @cons e e' rest rest' hfirst hrest =>
      let u : State := { s with stack := [.discarding (e' :: rest') none], control := .run }
      have hlaid : forall low, u.atop s.running [] low =
          { s with stack := .discarding (e' :: rest') none :: low, control := .run } := by
        intro low
        have hrunning := @atop_running u h.keys h.listed [] low
        rwa [World.onto_nil] at hrunning
      have hborne : (s.evicted lease requester (e' :: rest')).Borne s.running
          (State.outside lease requester) (State.inside lease requester) := by
        refine ⟨u, (hlaid _).symm, lost, ?_⟩
        rw [hlaid]
        exact h.inside (.cons hfirst hrest)
      have hleft : (s.evicted lease requester (e' :: rest')).HasLeft s.running
          (State.outside lease requester) (e' :: rest') none := ⟨[], .nothing, stackOf_running⟩
      exact .going hborne hleft (.going hleft rfl rfl)

theorem Leads.empties {t₀ : State} (h : t₀.Leads since t)
    (hstart : t₀.Empties c lease requester es []) : t.Empties c lease requester es since := by
  induction h with
  | refl => exact hstart
  | step hleads hstep ih => exact ih.step hstep

/-! ## All states -/

/-- What becomes of the entries that a fiber drops outside, and of unwinds that come out of that. -/
structure DropsOutside (t : State) (c : ContextId) (lease : Lease) (requester : ContextId)
    (es : List Entry) (since : List State) : Prop where
  /-- They are dropped one by one, and an unwind that comes out of a drop goes on with the others. -/
  course : t.Course c (outside lease requester) es since
  /-- Of the code that runs in their drops only a function on top is enclosed. -/
  enclosed : forall f below, t.stackOf c = some (f :: below) -> f.isUser = true -> Calm (f :: below) ->
    Catches (enclosure (f :: below)) ∨
      exists lease requester, enclosure (f :: below) = outside lease requester
  /-- An unwind that has come out of a drop is not caught, and ends the run. -/
  uncaught : forall escaped, t.AtEnd c (outside lease requester) (some escaped) ->
    t.step = .halted (.aborted .doubleUnwind) t.world
  /-- Without one, control goes to the context that has asked for it. -/
  exits : t.AtEnd c (outside lease requester) none ->
    exists t', t.step = .active t' ∧ t'.running = requester ∧ t'.control = .landed c .exit
  /-- An abort without a text comes of such an unwind, or of one within another of the same stack. -/
  aborted : forall cause w, t.step = .halted (.aborted cause) w -> cause.message? = none ->
    (exists escaped, t.AtEnd c (outside lease requester) (some escaped)) ∨
      exists inner earlier entries below,
        t.stack = .discarding [] (some inner) :: .discarding entries (some earlier) :: below

/-- What encloses code may lie below it wherever its stack ends. -/
theorem enclosure_append {above : List Frame} (hstacked : Stacked .fiber (above ++ low'))
    (hlow : low' ≠ []) (hcalm : Calm above) :
    Catches (enclosure (above ++ low)) ∨ enclosure (above ++ low) = enclosure low := by
  induction above with
  | nil => exact Or.inr rfl
  | cons f above ih =>
      have hrest : Calm above := fun g hg => hcalm g (List.mem_cons_of_mem _ hg)
      have hpasses : f.isUser = true -> Stacked .fiber (above ++ low') ->
          Catches (enclosure (f :: above ++ low)) ∨
            enclosure (f :: above ++ low) = enclosure low := by
        intro huser hbelow
        rw [List.cons_append, enclosure_of_isUser huser]
        exact ih hbelow hrest
      cases f with
      | code a => exact hpasses rfl hstacked.2
      | calling call a => exact hpasses rfl hstacked.2.2.2
      | dropping => exact hpasses rfl hstacked.2
      | discarding entries cause =>
          cases cause with
          | none => exact hpasses rfl hstacked.2
          | some cause => cases hcalm _ List.mem_cons_self
      | onTop source =>
          left
          rw [List.cons_append, enclosure_of_not_isUser rfl]
          exact .onTop _ _
      | base stage => exact absurd (List.append_eq_nil_iff.mp hstacked.2.2).2 hlow
      | root stage => exact absurd (List.append_eq_nil_iff.mp hstacked.2).2 hlow

theorem Borne.enclosed {rest : List Entry} (hc : c ≠ mainContext)
    (hborne : t.Borne c (outside lease requester) (inside lease requester))
    (hleft : t.HasLeft c (outside lease requester) rest cause)
    (hstack : t.stackOf c = some stack) (hcalm : Calm stack) :
    Catches (enclosure stack) ∨ enclosure stack = outside lease requester := by
  rcases hborne with ⟨u, rfl, lost, hsound⟩
  rcases (hasLeft_atop []).mp hleft with ⟨above, -, habove⟩
  have hlaid : forall low, (u.atop c [] low).stackOf c =
      some ((above ++ [.discarding rest cause]) ++ low) :=
    fun low => (stackOf_atop [] (by simp)).mpr habove
  cases hstack.symm.trans (hlaid (outside lease requester))
  have hstacked : Stacked .fiber ((above ++ [.discarding rest cause]) ++ inside lease requester) := by
    rcases hsound.stackOf (hlaid (inside lease requester)) with hstacked | hunborn
    · rwa [homeOf, if_neg hc] at hstacked
    · have hlength := congrArg List.length hunborn
      simp [inside] at hlength
  exact enclosure_append hstacked (List.cons_ne_nil _ _) fun f hf => hcalm f (List.mem_append_left _ hf)

/-- An abort without a text comes about as it would within a call. -/
theorem Borne.aborted {rest : List Entry} {abort : Abort} {w : World}
    (hborne : t.Borne c (outside lease requester) (inside lease requester))
    (hleft : t.HasLeft c (outside lease requester) rest cause)
    (hstep : t.step = .halted (.aborted abort) w) (hnone : abort.message? = none) :
    (exists escaped, t.AtEnd c (outside lease requester) (some escaped)) ∨
      exists inner earlier entries below,
        t.stack = .discarding [] (some inner) :: .discarding entries (some earlier) :: below := by
  rcases hborne.step hleft with hend | ⟨u, rfl, ⟨lost, hsound⟩, hout, hin⟩
  · exact Or.inl hend
  · rw [hstep] at hout
    cases hnext : u.step with
    | active v =>
        rw [hnext] at hout
        cases hout
    | halted outcome w =>
        rw [hnext] at hout hin
        cases hout
        rcases hsound.bounded.aborted abort _ hin hnone with ⟨inner, earlier, entries, below, hstack⟩
        refine Or.inr ⟨inner, earlier, entries, ?_⟩
        by_cases hc : u.running = c
        · subst hc
          rcases (hasLeft_atop []).mp hleft with ⟨above, -, habove⟩
          rw [stackOf_running, Option.some.injEq] at habove
          have hlaid : forall low, (u.atop u.running [] low).stack =
              above ++ .discarding rest cause :: low := by
            intro low
            rw [show (u.atop u.running [] low).stack = _ from lay_self, habove, List.append_assoc]
            rfl
          rw [hlaid] at hstack ⊢
          rcases above with - | ⟨f, - | ⟨g, above⟩⟩
          · cases hstack
          · cases hstack
            exact ⟨_, rfl⟩
          · cases hstack
            exact ⟨_, rfl⟩
        · have hlaid : forall low, (u.atop c [] low).stack = u.stack := fun low => lay_of_ne hc
          rw [hlaid] at hstack ⊢
          exact ⟨below, hstack⟩

theorem Empties.dropsOutside (h : t.Empties c lease requester es since) (hc : c ≠ mainContext) :
    t.DropsOutside c lease requester es since where
  course := h.course
  enclosed := by
    intro f below hstack huser hcalm
    cases h with
    | going hborne hleft =>
        rcases hborne.enclosed hc hleft hstack hcalm with hcatches | houtside
        · exact Or.inl hcatches
        · exact Or.inr ⟨_, _, houtside⟩
    | gone hsane =>
        rcases hsane with ⟨lost, hsound⟩
        rcases hsound.bounded.enclosed c f below hc hstack huser hcalm with
          hcatches | ⟨lease, requester, hdrops⟩
        · exact Or.inl hcatches
        · exact Or.inr ⟨lease, requester, by cases hdrops <;> rfl⟩
  uncaught _ hend := hend.uncaught
  exits := by
    intro hend
    cases h with
    | going hborne hleft => exact absurd hleft hend.not_hasLeft
    | gone hsane =>
        rcases hsane with ⟨lost, hsound⟩
        rcases hsound.exits hend.control hend.stack with ⟨t', hstep, hrunning, hcontrol⟩
        exact ⟨t', hstep, hrunning, hend.running ▸ hcontrol⟩
  aborted := by
    intro abort w hstep hnone
    cases h with
    | going hborne hleft => exact hborne.aborted hleft hstep hnone
    | gone hsane =>
        rcases hsane with ⟨lost, hsound⟩
        exact Or.inr (hsound.bounded.aborted abort w hstep hnone)

/--
A fiber that was not called is to be unwound, and has captured what lets an unwind escape, if the
captured guards are armed like this.  Their code has run on a stack on which no unwind was in progress,
and no boundary was below it.
-/
def LetsEscape (s : State) (es : List Entry) (escaped : Unwind) : Prop :=
  exists requester record f since t later u top below,
    s.control = .landed requester (.message .eviction) ∧ s.stack = [.base (.idle record)] ∧
      record.body = some f ∧ List.Forall₂ Entry.Arms f.captured es ∧
      (s.evicted record.lease requester es).Leads since t ∧
      t.stackOf s.running = some (top :: below) ∧ top.isUser = true ∧ Calm (top :: below) ∧
      ¬ Catches (enclosure (top :: below)) ∧ t.Leads later u ∧
      u.stack = .discarding [] (some escaped) :: outside record.lease requester ∧
      u.step = .halted (.aborted .doubleUnwind) u.world ∧ Abort.doubleUnwind.message? = none

theorem letsEscape {record : Record} {f : Closure} {label : String} {onDrop : List Op}
    {escaped : Unwind} {top : Frame} {n m : Nat}
    (hcontrol : s.control = .landed requester (.message .eviction))
    (hstack : s.stack = [.base (.idle record)]) (hbody : record.body = some f)
    (hcaptured : f.captured = [.guard label []])
    (ht : Config.after n (.active (s.evicted record.lease requester [.guard label onDrop])) = .active t)
    (hthere : t.stackOf s.running =
      some (top :: .discarding [] none :: outside record.lease requester))
    (huser : top.isUser = true) (htop : top.isUnwinding = false)
    (hu : Config.after m (.active t) = .active u)
    (hend : u.AtEnd s.running (outside record.lease requester) (some escaped)) :
    s.LetsEscape [.guard label onDrop] escaped := by
  have harms : List.Forall₂ Entry.Arms f.captured [.guard label onDrop] := by
    rw [hcaptured]
    exact .cons (.guard _ _ _) .nil
  have hcalm : Calm (top :: .discarding [] none :: outside record.lease requester) := by
    intro f hf
    rcases List.mem_cons.mp hf with rfl | hbelow
    · exact htop
    · rcases List.mem_cons.mp hbelow with rfl | hlowest
      · rfl
      · rw [List.mem_singleton.mp hlowest]
        rfl
  have hbare : ¬ Catches (enclosure (top :: .discarding [] none :: outside record.lease requester)) := by
    rw [enclosure_of_isUser huser, enclosure_of_isUser rfl, outside, enclosure_of_not_isUser rfl]
    intro hcatches
    cases hcatches
  rcases State.after_eq_active.mp ht with ⟨since, -, hleads⟩
  rcases State.after_eq_active.mp hu with ⟨later, -, hleads'⟩
  exact ⟨requester, record, f, since, t, later, u, top, _, hcontrol, hstack, hbody, harms, hleads,
    hthere, huser, hcalm, hbare, hleads', hend.stack, hend.uncaught, rfl⟩

end State

variable {p : Program} {past : List State} {s : State}

/--
The boundaries of user code catch unwinds.  Those that leave user code of a fiber end there, and those
that were asked for go on until control goes to who has asked, or they are discarded.  What has no
boundary below it is what a body has captured that is never called.  Whatever its guards do, an unwind
that leaves one of them is not caught, and there is no other way to such an abort.
-/
theorem unwind_boundary (h : p.Reaches past s) :
    s.Bounded ∧
      (forall later t earlier requester, past = later ++ t :: earlier ->
        0 < t.requestsOf requester ->
          0 < s.requestsOf requester ∨
            (exists u, u ∈ later ++ [t] ∧ requester ∈ u.swallows) ∨
              exists u, u ∈ s :: later ∧ u.HandsOver requester) ∧
      forall requester record f es, s.control = .landed requester (.message .eviction) ->
        s.stack = [.base (.idle record)] -> record.body = some f ->
          List.Forall₂ Entry.Arms f.captured es ->
            s.step = .active (s.evicted record.lease requester f.captured) ∧
              forall since t, (s.evicted record.lease requester es).Leads since t ->
                t.DropsOutside s.running record.lease requester es since := by
  refine ⟨h.sound.bounded, fun _ _ _ _ hpast hpending => h.requestsOf hpast hpending, ?_⟩
  intro requester record f es hcontrol hstack hbody harms
  have hstep := State.step_of_evicted hcontrol hstack hbody
  have hfiber : s.running ≠ mainContext := by
    intro hmain
    have hstands := h.sound.stands
    rw [State.Stands, hcontrol, hstack, hmain] at hstands
    cases hstands.1.1
  refine ⟨hstep, fun since t hleads => ?_⟩
  exact (hleads.empties ((h.sound.move hstep).2.empties harms)).dropsOutside hfiber

/--
The unwind of an abandoned fiber, as it leaves the body, ends at the boundary of the body.  That of a
guard which panics where its fiber was not called ends the run.
-/
theorem unwind_boundary_of_parkedFiber :
    (exists past s lease, Program.parkedFiber.Reaches past s ∧ s.Bounded ∧
      s.requestsOf mainContext = 1 ∧
      s.stack = [.discarding [] (some (.forced mainContext)), .base (.busy lease)] ∧
        s.EndsAt (.forced mainContext) [.base (.busy lease)]) ∧
    exists past s lease since t, Program.oneFiber.Reaches past s ∧
      (s.evicted lease mainContext [.guard "g" [.panic .other]]).Leads since t ∧ since.length = 5 ∧
      t.DropsOutside s.running lease mainContext [.guard "g" [.panic .other]] since ∧
      t.step = .halted (.aborted .doubleUnwind) t.world := by
  constructor
  · have hafter : exists s lease, Config.after 20 (.active Program.parkedFiber.start) = .active s ∧
        s.control = .run ∧ s.running ≠ mainContext ∧ s.requestsOf mainContext = 1 ∧
          s.stack = [.discarding [] (some (.forced mainContext)), .base (.busy lease)] :=
      ⟨_, _, rfl, rfl, by decide, rfl, rfl⟩
    rcases hafter with ⟨s, lease, hs, hrun, hfiber, hone, hstack⟩
    rcases Program.after_eq_active.mp hs with ⟨past, -, hreach⟩
    have hbounded := (unwind_boundary hreach).1
    rcases hbounded.left _ _ hrun hfiber hstack rfl with ⟨-, hends⟩ | ⟨hin, -⟩
    · exact ⟨past, s, lease, hreach, hbounded, hone, hstack, hends⟩
    · cases hin
  · have hafter : exists s record f t, Config.after 8 (.active Program.oneFiber.start) = .active s ∧
        s.control = .landed mainContext (.message .eviction) ∧ s.stack = [.base (.idle record)] ∧
        record.body = some f ∧ f.captured = [.guard "g" []] ∧
        Config.after 5 (.active
          (s.evicted record.lease mainContext [.guard "g" [.panic .other]])) = .active t ∧
        t.AtEnd s.running (State.outside record.lease mainContext) (some (.panic .other)) :=
      ⟨_, _, _, _, rfl, rfl, rfl, rfl, rfl, rfl, rfl, rfl, rfl⟩
    rcases hafter with ⟨s, record, f, t, hs, hcontrol, hstack, hbody, hcaptured, ht, hend⟩
    rcases Program.after_eq_active.mp hs with ⟨past, -, hreach⟩
    have harms : List.Forall₂ Entry.Arms f.captured [.guard "g" [.panic .other]] := by
      rw [hcaptured]
      exact .cons (.guard _ _ _) .nil
    rcases State.after_eq_active.mp ht with ⟨since, hlength, hleads⟩
    have hdrops := ((unwind_boundary hreach).2.2 _ _ _ _ hcontrol hstack hbody harms).2 _ _ hleads
    exact ⟨past, s, record.lease, since, t, hreach, hleads, hlength, hdrops, hdrops.uncaught _ hend⟩

/-- A program with a fiber that is dropped uncalled, and one that drops who resumes it. -/
def Program.guardedSibling : Program where
  hosts := []
  main :=
    [.create ⟨.own "f", "F", none, .heap "A" 4096⟩ ["g"] [] [],
      .create ⟨.shared "h", "H", none, .heap "B" 4096⟩ [] [] [.drop (.own "caller")],
      .drop (.own "f")]

/--
The boundaries are not complete.  A captured guard that panics, and one that resumes another context
and is abandoned there, let an unwind escape.
-/
theorem captured_guard_escapes_boundary :
    (exists past s, Program.oneFiber.Reaches past s ∧
      s.LetsEscape [.guard "g" [.panic .other]] (.panic .other)) ∧
    exists past s, Program.guardedSibling.Reaches past s ∧
      s.LetsEscape [.guard "g" [.resume ⟨.shared "h", false, none, .own "h", .keep⟩]] (.forced 2) := by
  constructor
  · have hafter : exists s record f t a u,
        Config.after 8 (.active Program.oneFiber.start) = .active s ∧
        s.control = .landed mainContext (.message .eviction) ∧ s.stack = [.base (.idle record)] ∧
        record.body = some f ∧ f.captured = [.guard "g" []] ∧
        Config.after 1 (.active
          (s.evicted record.lease mainContext [.guard "g" [.panic .other]])) = .active t ∧
        t.stackOf s.running =
          some (.code a :: .discarding [] none :: State.outside record.lease mainContext) ∧
        Config.after 4 (.active t) = .active u ∧
        u.AtEnd s.running (State.outside record.lease mainContext) (some (.panic .other)) :=
      ⟨_, _, _, _, _, _, rfl, rfl, rfl, rfl, rfl, rfl, rfl, rfl, rfl, rfl, rfl⟩
    rcases hafter with
      ⟨s, record, f, t, a, u, hs, hcontrol, hstack, hbody, hcaptured, ht, hthere, hu, hend⟩
    rcases Program.after_eq_active.mp hs with ⟨past, -, hreach⟩
    exact ⟨past, s, hreach,
      State.letsEscape hcontrol hstack hbody hcaptured ht hthere rfl rfl hu hend⟩
  · have hafter : exists s record f t call a u,
        Config.after 12 (.active Program.guardedSibling.start) = .active s ∧
        s.control = .landed mainContext (.message .eviction) ∧ s.stack = [.base (.idle record)] ∧
        record.body = some f ∧ f.captured = [.guard "g" []] ∧
        Config.after 4 (.active (s.evicted record.lease mainContext
          [.guard "g" [.resume ⟨.shared "h", false, none, .own "h", .keep⟩]])) = .active t ∧
        t.stackOf s.running =
          some (.calling call a :: .discarding [] none :: State.outside record.lease mainContext) ∧
        Config.after 5 (.active t) = .active u ∧
        u.AtEnd s.running (State.outside record.lease mainContext) (some (.forced 2)) :=
      ⟨_, _, _, _, _, _, _, rfl, rfl, rfl, rfl, rfl, rfl, rfl, rfl, rfl, rfl, rfl⟩
    rcases hafter with
      ⟨s, record, f, t, call, a, u, hs, hcontrol, hstack, hbody, hcaptured, ht, hthere, hu, hend⟩
    rcases Program.after_eq_active.mp hs with ⟨past, -, hreach⟩
    exact ⟨past, s, hreach,
      State.letsEscape hcontrol hstack hbody hcaptured ht hthere rfl rfl hu hend⟩

end Fibers
