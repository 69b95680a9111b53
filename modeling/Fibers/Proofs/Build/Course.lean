import Fibers.Proofs.Closures.Remains
import Fibers.Proofs.Trace.Passage

/-!
# The course of a call that has failed

A call that cannot make a fiber drops what has been captured for it, entry by entry, before it comes
to its end.  The drop of an entry may run the code of a guard, which may switch to other contexts, be
unwound there, or panic.  All of that takes place above the entries that are left, and none of it
reaches them but an unwind that comes out of such a drop, which goes on with these entries and then
leaves the call.
-/

namespace Fibers

/-! ## Frames above entries that wait -/

/-- Frames above entries that wait: nothing, something that a drop does, or an unwind out of that. -/
inductive OverDrop : List Frame -> Prop where
  | nothing : OverDrop []
  | serving {above : List Frame} {f : Frame} : above.getLast? = some f -> f.Serves -> OverDrop above
  | escaping (cause : Unwind) : OverDrop [.discarding [] (some cause)]

theorem OverDrop.dropFirst {f : Frame} (hf : f.Serves) (es : List Entry) :
    OverDrop (dropFirst es [f]) := by
  cases es with
  | nil => exact .serving rfl hf
  | cons e es => exact .serving rfl hf

/-- What a call is in the middle of does not matter to the entries below. -/
theorem OverDrop.retop {call call' : Call} {a : Activation} {above : List Frame}
    (h : OverDrop (.calling call a :: above)) : OverDrop (.calling call' a :: above) := by
  cases h with
  | serving hlast hf =>
      cases above with
      | nil =>
          cases hlast
          exact .serving rfl hf
      | cons f above => exact .serving hlast hf

theorem OverDrop.push {call : Call} {a : Activation} {above upper : List Frame}
    (h : OverDrop (.calling call a :: above)) : OverDrop (upper ++ .calling call a :: above) := by
  cases h with
  | serving hlast hf =>
      refine .serving ?_ hf
      rw [List.getLast?_append, hlast]
      rfl

namespace State

variable {s s' : State} {lost : List ContextId} {c : ContextId} {old new above : List Frame}
  {entries : List LogEntry} {next : Onward}

/-- The lowest of the frames that a step reworks serves a drop, and so do those that take its place. -/
theorem Reworks.overDrop {f : Frame} (h : s.Reworks old new entries next) (hlast : old.getLast? = some f)
    (hf : f.Serves) : OverDrop new := by
  cases h with
  | works hold hnew hserves =>
      cases hlast
      exact .dropFirst (hserves hf) _
  | panics hold hserves =>
      cases hlast
      exact .serving rfl (hserves hf).code
  | @fails a a' es cause name entries hserves =>
      cases hlast
      have hcall : (Frame.calling (.failBuild cause) a').Serves := hserves hf
      exact .dropFirst hcall es
  | launches hserves =>
      cases hlast
      exact .serving rfl (hserves hf)
  | departs hold hnew hserves =>
      cases hlast
      exact .serving rfl (hserves hf)
  | born =>
      cases hlast
      exact .serving rfl hf
  | failed | evicts | unwindsCall | unwindsBuild =>
      cases hlast
      exact .serving rfl (Activation.Serves.code hf)
  | unwinds hcontrol hserves =>
      cases hlast
      exact .serving rfl (hserves hf).code
  | caught hcontrol hlost hserves =>
      cases hlast
      exact .serving rfl (hserves hf).code
  | passes =>
      exact .escaping _
  | dropped => exact .nothing
  | gives | endsProgram | finishes | returns | takesOver | closes | drains | redelivers | done | skips
  | drops | dropsActing | abandons | root | exits | parks | dispatches | evictsIdle =>
      cases hlast
      cases hf

theorem Reworks.ne_nil (h : s.Reworks old new entries next) : old ≠ [] := by
  cases h <;> exact List.cons_ne_nil _ _

/-- An unwind that comes out of something goes on in the frame below. -/
theorem Reworks.ne_escaping {cause : Unwind} (h : s.Reworks old new entries next) :
    old ≠ [.discarding [] (some cause)] := by
  intro hold
  cases h with
  | works hordinary | panics hordinary | departs hordinary =>
      cases hold
      cases hordinary
  | _ => cases hold

/--
From above, entries that wait are reached in two ways: what a drop does comes to its end, or an unwind
comes out of it.
-/
theorem Reworks.reaches {es : List Entry} {cause : Option Unwind} {rest : List Frame}
    (h : s.Reworks old new entries next) (hold : old = above ++ .discarding es cause :: rest)
    (habove : above ≠ []) :
    rest = [] ∧ next = .run ∧ s.control = .run ∧
      ((exists a, above = [.code a] ∧ a.blocks = [] ∧
          new = [.discarding (a.flow.result.entries ++ es) cause]) ∨
        exists escaped, above = [.discarding [] (some escaped)] ∧ cause = none ∧
          new = [.discarding es (some escaped)]) := by
  have htwo : old.length ≤ 2 := by cases h <;> simp
  rcases above with - | ⟨f, - | ⟨g, above⟩⟩
  · exact absurd rfl habove
  · have hrest : rest = [] := by
      rw [hold] at htwo
      simp only [List.cons_append, List.nil_append, List.length_cons] at htwo
      exact List.length_eq_zero_iff.mp (by omega)
    subst hrest
    cases h with
    | gives hcontrol hblocks =>
        cases hold
        exact ⟨rfl, rfl, hcontrol, Or.inl ⟨_, rfl, hblocks, rfl⟩⟩
    | takesOver hcontrol =>
        cases hold
        exact ⟨rfl, rfl, hcontrol, Or.inr ⟨_, rfl, rfl, rfl⟩⟩
    | _ => cases hold
  · rw [hold] at htwo
    simp at htwo

/-- Frames that lie above those that a step reworks go on lying there. -/
theorem Reworks.overDrop_append {upper : List Frame} (h : s.Reworks old new entries next)
    (hover : OverDrop (old ++ upper)) : OverDrop (new ++ upper) := by
  generalize hall : old ++ upper = all at hover
  cases hover with
  | nothing => exact absurd (List.append_eq_nil_iff.mp hall).1 h.ne_nil
  | serving hlast hf =>
      rw [<- hall, List.getLast?_append] at hlast
      cases hupper : upper.getLast? with
      | none =>
          rw [hupper] at hlast
          rw [List.getLast?_eq_none_iff.mp hupper, List.append_nil]
          exact h.overDrop hlast hf
      | some g =>
          rw [hupper] at hlast
          refine .serving ?_ hf
          rw [List.getLast?_append, hupper]
          exact hlast
  | escaping cause =>
      rcases List.append_eq_singleton_iff.mp hall with ⟨hold, -⟩ | ⟨hold, -⟩
      · exact absurd hold h.ne_nil
      · exact absurd hold h.ne_escaping

/-! ## Entries that are left -/

/-- A context has such entries left to drop, above frames that wait for the end of that. -/
def HasLeft (s : State) (c : ContextId) (low : List Frame) (es : List Entry)
    (cause : Option Unwind) : Prop :=
  exists above, OverDrop above ∧ s.stackOf c = some (above ++ .discarding es cause :: low)

/-- The entry that the next step drops from the stack of a context, if so many frames are there. -/
def dropAt? (s : State) (c : ContextId) (depth : Nat) : Option Entry :=
  if s.running = c ∧ s.stack.length = depth then s.dropping? else none

/-- The unwind that comes out of such a drop with the next step. -/
def escapeAt? (s : State) (c : ContextId) (depth : Nat) : Option Unwind :=
  match s.control, s.stack with
  | .run, .discarding [] (some cause) :: .discarding _ none :: below =>
      if s.running = c ∧ below.length + 1 = depth then some cause else none
  | _, _ => none

/-- A call is about to end: by itself, or left by an unwind. -/
structure AtEnd (s : State) (c : ContextId) (low : List Frame) (cause : Option Unwind) : Prop where
  running : s.running = c
  control : s.control = .run
  stack : s.stack = (cause.toList.map fun cause => .discarding [] (some cause)) ++ low

/-- What a step makes of entries that are left above a call. -/
inductive Lessens (s s' : State) (c : ContextId) (low : List Frame) (es : List Entry)
    (cause : Option Unwind) : Prop where
  /-- One of them is dropped, or an unwind has come to them, or neither. -/
  | goes {dropped : Option Entry} {escaped cause' : Option Unwind} {es' : List Entry} :
      s.dropAt? c (low.length + 1) = dropped -> s.escapeAt? c (low.length + 1) = escaped ->
        es = dropped.toList ++ es' -> cause'.toList = escaped.toList ++ cause.toList ->
        s'.HasLeft c low es' cause' -> Lessens s s' c low es cause
  | ends : es = [] -> cause = none -> s.dropAt? c (low.length + 1) = none ->
      s.escapeAt? c (low.length + 1) = none -> s'.AtEnd c low none -> Lessens s s' c low es cause
  | leaves {escaped : Unwind} : es = [] -> cause = some escaped -> s.AtEnd c low cause ->
      Lessens s s' c low es cause

theorem dropAt?_of_ne {depth : Nat} (hc : s.running ≠ c) : s.dropAt? c depth = none :=
  if_neg fun h => hc h.1

theorem escapeAt?_of_ne {depth : Nat} (hc : s.running ≠ c) : s.escapeAt? c depth = none := by
  unfold escapeAt?
  split
  · exact if_neg fun h => hc h.1
  · rfl

theorem dropAt?_landed {depth : Nat} {source : ContextId} {signal : Signal}
    (hcontrol : s.control = .landed source signal) : s.dropAt? c depth = none := by
  simp [dropAt?, dropping?, hcontrol]

theorem escapeAt?_landed {depth : Nat} {source : ContextId} {signal : Signal}
    (hcontrol : s.control = .landed source signal) : s.escapeAt? c depth = none := by
  simp [escapeAt?, hcontrol]

theorem dropAt?_of_length {depth : Nat} (hlength : s.stack.length ≠ depth) :
    s.dropAt? c depth = none := if_neg fun h => hlength h.2

section Step

variable {low : List Frame} {es : List Entry} {cause : Option Unwind}

/-- Nothing has happened to the entries. -/
theorem Lessens.stays (hdrop : s.dropAt? c (low.length + 1) = none)
    (hescape : s.escapeAt? c (low.length + 1) = none) (hover : OverDrop above)
    (hstack : s'.stackOf c = some (above ++ .discarding es cause :: low)) :
    s.Lessens s' c low es cause :=
  .goes hdrop hescape rfl rfl ⟨above, hover, hstack⟩

/-- A context that does not run has left what it had. -/
theorem Sound.lessens_waiting (h : s.Sound lost) (hstep : s.step = .active s')
    (hc : c ≠ s.running) (hover : OverDrop above)
    (hstack : s.stackOf c = some (above ++ .discarding es cause :: low)) (hlow : low ≠ []) :
    s.Lessens s' c low es cause := by
  have hdrop := @dropAt?_of_ne s c (low.length + 1) hc.symm
  have hescape := @escapeAt?_of_ne s c (low.length + 1) hc.symm
  have hhere : forall lease, above ++ .discarding es cause :: low ≠ [.base (.exited lease)] := by
    intro lease heq
    have hlength := congrArg List.length heq
    have hpos := List.length_pos_iff.mpr hlow
    simp only [List.length_append, List.length_cons, List.length_nil] at hlength
    omega
  rcases h.stays hstep hstack hhere with ⟨stack', hstack'⟩
  rcases h.touches hstep hc hstack' with ⟨hnew, -⟩ | ⟨stack, hold, htouches⟩
  · cases hnew.symm.trans hstack
  · cases hold.symm.trans hstack
    generalize hall : above ++ .discarding es cause :: low = all at htouches
    -- What was touched is the call on top, which lies above the entries.
    have htouched : forall (call call' : Call) (a : Activation) (below : List Frame),
        all = .calling call a :: below -> s'.stackOf c = some (.calling call' a :: below) ->
          s.Lessens s' c low es cause := by
      intro call call' a below heq hthere
      cases above with
      | nil => cases hall.trans heq
      | cons f above =>
          cases hall.trans heq
          exact .stays hdrop hescape hover.retop hthere
    cases htouches with
    | none => exact .stays hdrop hescape hover (hall ▸ hstack')
    | reply reply => exact htouched _ _ _ _ rfl hstack'
    | function => exact htouched _ _ _ _ rfl hstack'

/-- Where nothing is above the entries, the first of them is dropped, or the call ends. -/
theorem Reworks.drops_first {failure : BuildError} {a : Activation} {below rest : List Frame}
    (h : s.Reworks old new entries next)
    (hold : old ++ rest = .discarding es cause :: .calling (.failBuild failure) a :: below) :
    s.control = .run ∧
      ((exists e es' upper, es = e :: es' ∧ OverDrop upper ∧
          new ++ rest = upper ++ .discarding es' cause :: .calling (.failBuild failure) a :: below) ∨
        es = [] ∧ cause = none ∧ next = .run ∧
          new ++ rest = .calling (.failBuild failure) a :: below ∨
        es = [] ∧ exists escaped, cause = some escaped) := by
  cases h with
  | done hcontrol =>
      cases hold
      exact ⟨hcontrol, Or.inr (Or.inl ⟨rfl, rfl, rfl, rfl⟩)⟩
  | skips hcontrol | drops hcontrol =>
      cases hold
      exact ⟨hcontrol, Or.inl ⟨_, _, [], rfl, .nothing, rfl⟩⟩
  | dropsActing hcontrol =>
      cases hold
      exact ⟨hcontrol, Or.inl ⟨_, _, [_], rfl, .serving rfl (Activation.serves_ofCode ..), rfl⟩⟩
  | abandons hcontrol =>
      cases hold
      exact ⟨hcontrol, Or.inl ⟨_, _, [.dropping], rfl, .serving rfl trivial, rfl⟩⟩
  | unwindsCall hcontrol hmakes =>
      cases hold
      cases hmakes
  | unwindsBuild hcontrol =>
      cases hold
      exact ⟨hcontrol, Or.inr (Or.inr ⟨rfl, _, rfl⟩)⟩
  | works hordinary | panics hordinary | departs hordinary =>
      cases hold
      cases hordinary
  | _ => cases hold

/-- What is above the entries is not where they are dropped. -/
theorem length_ne_of_above (hall : s.stack = above ++ .discarding es cause :: low)
    (hne : above ≠ []) : s.stack.length ≠ low.length + 1 := by
  have hpos := List.length_pos_iff.mpr hne
  rw [hall, List.length_append, List.length_cons]
  omega

/-- An unwind comes out of a drop where nothing but that unwind is above the entries. -/
theorem escapeAt?_eq_none (hall : s.stack = above ++ .discarding es cause :: low)
    (hnot : forall escaped, above ≠ [.discarding [] (some escaped)]) :
    s.escapeAt? c (low.length + 1) = none := by
  unfold escapeAt?
  split
  · rename_i escaped es' below hcontrol hstack
    refine if_neg fun hdepth => ?_
    rw [hall] at hstack
    rcases above with - | ⟨f, - | ⟨g, above⟩⟩
    · cases hstack
      have hlength := hdepth.2
      simp at hlength
    · cases hstack
      exact hnot escaped rfl
    · cases hstack
      have hlength := hdepth.2
      simp at hlength
      omega
  · rfl

section Running

variable {failure : BuildError} {a : Activation} {below rest : List Frame} (h : s.Sound lost)
  (hreworks : s.Reworks old new entries next) (hgoes : s.Goes (new ++ rest) next s')
  (hover : OverDrop above) (hall : s.stack = above ++ .discarding es cause :: low)

include h hreworks hgoes hover hall

/-- What is above the entries goes on. -/
theorem Sound.lessens_above {upper : List Frame} (habove : above = old ++ upper)
    (hrest : rest = upper ++ .discarding es cause :: low) : s.Lessens s' s.running low es cause := by
  have hne : above ≠ [] := by
    intro hnil
    exact hreworks.ne_nil (List.append_eq_nil_iff.mp (habove.symm.trans hnil)).1
  have hnot : forall escaped, above ≠ [.discarding [] (some escaped)] := by
    intro escaped heq
    rcases List.append_eq_singleton_iff.mp (habove.symm.trans heq) with ⟨hold, -⟩ | ⟨hold, -⟩
    · exact hreworks.ne_nil hold
    · exact hreworks.ne_escaping hold
  have hlength := length_ne_of_above hall hne
  refine .stays (dropAt?_of_length hlength) (escapeAt?_eq_none hall hnot)
    (hreworks.overDrop_append (habove ▸ hover)) ?_
  rw [hgoes.stackOf_running h, hrest, List.append_assoc]

/-- What is above the entries has come to its end, or an unwind has come out of it. -/
theorem Sound.lessens_reached (hold : old = above ++ [.discarding es cause]) (hrest : rest = low)
    (hne : above ≠ []) : s.Lessens s' s.running low es cause := by
  have hafter := hgoes.stackOf_running h
  rw [hrest] at hafter
  have hlength := length_ne_of_above hall hne
  have hdrop := @dropAt?_of_length s s.running _ hlength
  rcases hreworks.reaches hold hne with ⟨-, -, hcontrol, ⟨a, rfl, hblocks, rfl⟩ | ⟨escaped, rfl, rfl, rfl⟩⟩
  · have hempty : a.flow.result = .empty := by
      cases hover with
      | serving hlast hserves =>
          cases hlast
          exact hserves.2 hblocks
    rw [hempty] at hafter
    exact .stays hdrop (escapeAt?_eq_none hall (fun _ heq => by cases heq)) .nothing hafter
  · have hescape : s.escapeAt? s.running (low.length + 1) = some escaped := by
      simp [escapeAt?, hcontrol, hall]
    exact .goes hdrop hescape rfl rfl ⟨[], .nothing, hafter⟩

/-- The next entry is dropped, or none is left. -/
theorem Sound.lessens_dropping (hlow : low = .calling (.failBuild failure) a :: below)
    (hold : old ++ rest = .discarding es cause :: low) (hnil : above = []) :
    s.Lessens s' s.running low es cause := by
  have hafter := hgoes.stackOf_running h
  subst hnil hlow
  have hescape := @escapeAt?_eq_none s s.running _ _ _ _ hall fun _ heq => by cases heq
  have hdrop : forall e es', s.control = .run -> es = e :: es' ->
      s.dropAt? s.running (below.length + 1 + 1) = some e := by
    rintro e es' hcontrol rfl
    simp [dropAt?, dropping?, hcontrol, hall]
  rcases hreworks.drops_first hold with
    ⟨hcontrol, ⟨e, es', upper, rfl, hupper, heq⟩ | ⟨rfl, rfl, rfl, heq⟩ | ⟨rfl, escaped, rfl⟩⟩
  · rw [heq] at hafter
    exact .goes (hdrop e es' hcontrol rfl) hescape rfl rfl ⟨upper, hupper, hafter⟩
  · have hnone : s.dropAt? s.running (below.length + 1 + 1) = none := by
      simp [dropAt?, dropping?, hcontrol, hall]
    rcases hgoes.stays (Or.inl rfl) with ⟨hrunning, hstack, -⟩
    exact .ends rfl rfl hnone hescape ⟨hrunning, hgoes.control, hstack.trans heq⟩
  · exact .leaves rfl rfl ⟨rfl, hcontrol, hall⟩

end Running

/-- A function that has come with a switch runs on top of all. -/
theorem Sound.lessens_calling {source : ContextId} (h : s.Sound lost)
    (hcontrol : s.control = .landed source .onTop) (hstep : s.step = .active s')
    (hover : OverDrop above) (hall : s.stack = above ++ .discarding es cause :: low) :
    s.Lessens s' s.running low es cause := by
  have hrest : AtRest s.stack := by
    cases h.arrives hcontrol with
    | onTop _ hrest => exact hrest
  have hcalls : s.step = s.callOnTop source := by simp only [step, hcontrol, land]
  rcases h.stackOf_of_call hcontrol (hcalls.symm.trans hstep) with ⟨b, hafter⟩
  have hpushed : OverDrop (.code b :: .onTop source :: above) := by
    cases above with
    | nil =>
        rw [hall] at hrest
        rcases hrest with ⟨record, hbase⟩ | ⟨host, target, a, below, hcalling⟩
        · cases hbase
        · cases hcalling
    | cons f above =>
        rw [hall] at hrest
        rcases hrest with ⟨record, hbase⟩ | ⟨host, target, a, below, hcalling⟩
        · have hlength := congrArg List.length hbase
          simp at hlength
        · cases hcalling
          exact @OverDrop.push _ _ _ [.code b, .onTop source] hover
  rw [hall] at hafter
  exact .stays (dropAt?_landed hcontrol) (escapeAt?_landed hcontrol) hpushed hafter

/--
The entries that wait above a failing call are left alone, dropped one at a time, or taken over by an
unwind that has come out of a drop.
-/
theorem Sound.lessens {failure : BuildError} {a : Activation} {below : List Frame}
    (h : s.Sound lost) (hlow : low = .calling (.failBuild failure) a :: below)
    (hleft : s.HasLeft c low es cause) (hstep : s.step = .active s') :
    s.Lessens s' c low es cause := by
  rcases hleft with ⟨above, hover, hstack⟩
  by_cases hc : c = s.running
  · subst hc
    have hall := Option.some.inj (stackOf_running.symm.trans hstack)
    cases h.passage hstep with
    | @reworks old new rest entries next hold hreworks hgoes =>
        rcases List.append_eq_append_iff.mp (hold.symm.trans hall) with
          ⟨upper, habove, hrest⟩ | ⟨lower, hlower, hrest⟩
        · exact h.lessens_above hreworks hgoes hover hall habove hrest
        · cases lower with
          | nil =>
              have habove : above = old ++ [] := by simp [hlower]
              have hbelow : rest = [] ++ .discarding es cause :: low := hrest.symm
              exact h.lessens_above hreworks hgoes hover hall habove hbelow
          | cons f lower =>
              cases hrest
              by_cases hnil : above = []
              · refine h.lessens_dropping hreworks hgoes hover hall hlow ?_ hnil
                rw [hlower, hnil]
                rfl
              · have hlast := (hreworks.reaches hlower hnil).1
                subst hlast
                exact h.lessens_reached hreworks hgoes hover hall hlower rfl hnil
    | answers reply hcontrol hne hprober heq =>
        refine .stays (dropAt?_landed hcontrol) (escapeAt?_landed hcontrol) hover ?_
        rw [heq, stackOf_hop h.listed hprober hne, if_neg hne.symm, if_pos rfl, hall]
    | calls hcontrol => exact h.lessens_calling hcontrol hstep hover hall
    | releases hcontrol hne hsource hreleases =>
        refine .stays (dropAt?_landed hcontrol) (escapeAt?_landed hcontrol) hover ?_
        rw [<- hreleases.running, stackOf_running, hreleases.stack, hall]
  · exact h.lessens_waiting hstep hc hover hstack (hlow ▸ List.cons_ne_nil _ _)

end Step

end State

/-! ## All steps -/

/-- The entries that were dropped in the given states at a place of a context's stack. -/
def droppedAt (c : ContextId) (depth : Nat) (past : List State) : List Entry :=
  past.filterMap fun s => s.dropAt? c depth

/-- The unwinds that came out of such drops. -/
def escapedAt (c : ContextId) (depth : Nat) (past : List State) : List Unwind :=
  past.filterMap fun s => s.escapeAt? c depth

namespace State

variable {s s' t u : State} {lost : List ContextId} {c : ContextId} {low : List Frame}
  {es : List Entry} {since : List State}

theorem Leads.sane (h : s.Leads since t) (hsane : s.Sane) : t.Sane := by
  induction h with
  | refl => exact hsane
  | step _ hstep ih =>
      rcases ih with ⟨lost, hsound⟩
      exact ⟨_, (hsound.move hstep).2⟩

/--
What has become of the entries that a call has to drop, in the states since.  Those that were dropped
are the first of them, each once and in their order, and what is left is dropped as a part of the
unwind that has come out of a drop, of which there is at most one.
-/
inductive Course (t : State) (c : ContextId) (low : List Frame) (es : List Entry)
    (since : List State) : Prop where
  | going {rest : List Entry} {cause : Option Unwind} :
      t.HasLeft c low rest cause -> es = (droppedAt c (low.length + 1) since).reverse ++ rest ->
        escapedAt c (low.length + 1) since = cause.toList -> Course t c low es since
  /-- All were dropped when the call came to its end. -/
  | ended {after during : List State} {u : State} {cause : Option Unwind} :
      t :: since = after ++ u :: during -> u.AtEnd c low cause ->
        es = (droppedAt c (low.length + 1) during).reverse ->
        escapedAt c (low.length + 1) during = cause.toList -> Course t c low es since

theorem droppedAt_cons (depth : Nat) : droppedAt c depth (s :: since) =
    (s.dropAt? c depth).toList ++ droppedAt c depth since := by
  cases hdrop : s.dropAt? c depth <;> simp [droppedAt, hdrop]

theorem escapedAt_cons (depth : Nat) : escapedAt c depth (s :: since) =
    (s.escapeAt? c depth).toList ++ escapedAt c depth since := by
  cases hescape : s.escapeAt? c depth <;> simp [escapedAt, hescape]

/-- A step that is accounted for goes on with the course. -/
theorem Course.step (hcourse : s.Course c low es since)
    (hlessens : forall rest cause, s.HasLeft c low rest cause -> s.Lessens s' c low rest cause) :
    s'.Course c low es (s :: since) := by
  cases hcourse with
  | ended hsince hend hes hescaped =>
      rw [hsince]
      exact .ended (List.cons_append ..).symm hend hes hescaped
  | @going rest cause hleft hes hescaped =>
      cases hlessens rest cause hleft with
      | @goes dropped escaped cause' rest' hdrop hescape hrest hcause hafter =>
          refine .going hafter ?_ ?_
          · rw [droppedAt_cons, hdrop, hes, hrest]
            cases dropped <;> simp
          · rw [escapedAt_cons, hescape, hescaped, hcause]
      | ends hnil hnone hdrop hescape hend =>
          have hsince : s' :: s :: since = [] ++ s' :: s :: since := rfl
          refine .ended hsince hend ?_ ?_
          · rw [droppedAt_cons, hdrop, hes, hnil, List.append_nil]
            rfl
          · rw [escapedAt_cons, hescape, hescaped, hnone]
            rfl
      | leaves hnil hcause hend =>
          have hsince : s' :: s :: since = [s'] ++ s :: since := rfl
          refine .ended hsince hend ?_ hescaped
          rw [hes, hnil, List.append_nil]

variable {failure : BuildError} {a : Activation} {below : List Frame}

/-- A call that has failed takes its course. -/
theorem Leads.course (h : s.Leads since t) (hsane : s.Sane)
    (hlow : low = .calling (.failBuild failure) a :: below) (hcontrol : s.control = .run)
    (hstack : s.stack = dropFirst es low) : t.Course s.running low es since := by
  induction h with
  | refl =>
      cases es with
      | nil =>
          have hsince : [s] = [] ++ s :: [] := rfl
          have hend : s.AtEnd s.running low none := ⟨rfl, hcontrol, hstack⟩
          exact .ended hsince hend rfl rfl
      | cons e es => exact .going ⟨[], .nothing, hstack ▸ stackOf_running⟩ rfl rfl
  | step hleads hstep ih =>
      rcases hleads.sane hsane with ⟨lost, hsound⟩
      exact ih.step fun rest cause hleft => hsound.lessens hlow hleft hstep

end State

end Fibers
