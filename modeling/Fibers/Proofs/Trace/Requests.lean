import Fibers.Proofs.Giveback
import Fibers.Proofs.Trace.Census

/-!
# Requests on their way

A fiber that is abandoned gets a request to unwind, and exits once it has.  Until then the request
is on its stack, or is just landing there; and it goes through the sections of the stack one after
another, the functions on top first and the body last.  Here each request is told with the number
of sections that it has yet to begin.  A fiber whose body has returned owes nobody but the exit.
-/

namespace Fibers

/-! ## Sections -/

/-- The frames that the code above them cannot be unwound past in one go. -/
def Frame.isSection : Frame -> Bool
  | onTop _ | base (.busy _) => true
  | _ => false

/-- How many sections a stack has. -/
def sections (stack : List Frame) : Nat := stack.countP Frame.isSection

/-- What is due because of an unwind, with so many sections on the stack below it. -/
def Unwind.due (below : Nat) : Unwind -> List (Option Nat)
  | panic _ => []
  | forced _ => [some (below - 1)]

/-- What is due because of a frame. -/
def Frame.due (below : Nat) : Frame -> List (Option Nat)
  | discarding _ cause => cause.toList.flatMap (Unwind.due below)
  | base (.leaving _ (.unwound _)) => [some 0]
  | base (.leaving _ (.returned _)) => [none]
  | _ => []

/--
The exits that are due on a stack: for each request the number of sections that it has yet to begin,
and nothing for a body that has returned.
-/
def dueOn : List Frame -> List (Option Nat)
  | [] => []
  | f :: below => f.due (sections below) ++ dueOn below

section Stack

variable {f : Frame} {es : List Entry} {below : List Frame}

@[simp] theorem sections_nil : sections [] = 0 := rfl

@[simp] theorem sections_cons (f : Frame) (below : List Frame) :
    sections (f :: below) = sections below + if f.isSection then 1 else 0 := by
  simp [sections, List.countP_cons]

@[simp] theorem sections_dropFirst (es : List Entry) (stack below : List Frame) :
    sections (dropFirst es stack ++ below) = sections (stack ++ below) := by
  cases es <;> rfl

@[simp] theorem dueOn_nil : dueOn [] = [] := rfl

@[simp] theorem dueOn_cons (f : Frame) (below : List Frame) :
    dueOn (f :: below) = f.due (sections below) ++ dueOn below := rfl

@[simp] theorem dueOn_dropFirst (es : List Entry) (stack below : List Frame) :
    dueOn (dropFirst es stack ++ below) = dueOn (stack ++ below) := by
  cases es <;> rfl

theorem Frame.due_of_isOrdinary (h : f.isOrdinary = true) (n : Nat) : f.due n = [] := by
  cases f <;> first | rfl | cases h

@[simp] theorem Frame.due_code (a : Activation) (n : Nat) : (code a).due n = [] := rfl

@[simp] theorem Frame.due_discarding (es : List Entry) (cause : Option Unwind) (n : Nat) :
    (discarding es cause).due n = cause.toList.flatMap (Unwind.due n) := rfl

/-- A fiber's code is in a section of its own stack. -/
theorem Stacked.sections_pos {stack : List Frame} (h : Stacked .fiber stack)
    (hcode : CarriesCode stack ∨ InCode stack) : 0 < sections stack := by
  induction stack with
  | nil => exact h.elim
  | cons f below ih =>
      have hbelow : 0 < sections below -> 0 < sections (f :: below) := by
        intro hpos
        rw [sections_cons]
        omega
      cases f with
      | code a => exact hbelow (ih h.2 (Or.inl h.1))
      | calling call a => exact hbelow (ih h.2.2.2 (Or.inl h.2.2.1))
      | discarding entries cause =>
          cases cause with
          | none =>
              have hin : InCode below := hcode.resolve_right id
              exact hbelow (ih h.2 (Or.inr hin))
          | some cause => exact hbelow (ih h.2.2 h.2.1.symm)
      | onTop source => simp [Frame.isSection]
      | base stage =>
          cases stage with
          | busy lease => simp [Frame.isSection]
          | _ => rcases hcode with hcarries | hin <;> contradiction
      | root stage => cases h.1
      | dropping => rcases hcode with hcarries | hin <;> contradiction

end Stack

/-- What is due where a step leads, with so many sections on the stack there. -/
def Onward.dueAt (n : Nat) : Onward -> List (Option Nat)
  | .lands _ .eviction => [some n]
  | _ => []

/-! ## States -/

namespace State

/-- A request to unwind has landed. -/
def evicting (s : State) : Bool :=
  match s.control with
  | .landed _ (.message .eviction) => true
  | _ => false

/-- The fiber that the next step abandons. -/
def abandoning? (s : State) : Option ContextId :=
  match s.control, s.stack with
  | .run, .discarding (.slot _ (.live fiber) :: _) _ :: _ => some fiber
  | _, _ => none

/-- With the next step a body is over that has returned a handle. -/
def returnsBody (s : State) : Bool :=
  match s.control, s.stack with
  | .run, .code a :: .base (.busy _) :: _ => a.blocks.isEmpty && !a.flow.result.isEmpty
  | _, _ => false

/-- With the next step control leaves a fiber for good. -/
def isExiting (s : State) : Bool :=
  match s.control, s.stack with
  | .run, .base (.leaving _ _) :: _ => true
  | _, _ => false

/-- The exits that are due in a context. -/
def due (s : State) (c : ContextId) : List (Option Nat) :=
  (if c = s.running ∧ s.evicting = true then [some (sections s.stack)] else []) ++
    dueOn ((s.stackOf c).getD [])

/-- How a step deals with what is due, and the milestones that it logs. -/
inductive Discharges (s s' : State) (logged : List Milestone) : Prop where
  | nothing :
      s.abandoning? = none -> s.returnsBody = false -> s.isExiting = false ->
        logged.count .abandoned = 0 -> logged.count .forcedUnwind = 0 ->
        logged.count .exiting = 0 -> (forall c, s'.due c = s.due c) -> Discharges s s' logged
  | abandons {c : ContextId} {stack : List Frame} :
      s.abandoning? = some c -> s.returnsBody = false -> s.isExiting = false ->
        logged = [.abandoned] -> s.parked? c = some stack ->
        s'.due c = some (sections stack) :: s.due c ->
        (forall d, d ≠ c -> s'.due d = s.due d) -> Discharges s s' logged
  | forces {n : Nat} {rest : List (Option Nat)} :
      s.abandoning? = none -> s.returnsBody = false -> s.isExiting = false ->
        logged = [.forcedUnwind] -> s.due s.running = some (n + 1) :: rest ->
        s'.due s.running = some n :: rest ->
        (forall d, d ≠ s.running -> s'.due d = s.due d) -> Discharges s s' logged
  | returns :
      s.abandoning? = none -> s.returnsBody = true -> s.isExiting = false ->
        logged = [] -> s.due s.running = [] -> s'.due s.running = [none] ->
        (forall d, d ≠ s.running -> s'.due d = s.due d) -> Discharges s s' logged
  | exits {x : Option Nat} :
      s.abandoning? = none -> s.returnsBody = false -> s.isExiting = true ->
        logged = [.exiting] -> s.due s.running = [x] -> x.getD 0 = 0 -> s'.due s.running = [] ->
        (forall d, d ≠ s.running -> s'.due d = s.due d) -> Discharges s s' logged

variable {s s' : State} {lost : List ContextId} {old new below stack : List Frame}
  {entries : List LogEntry} {next : Onward} {w : World} {c : ContextId}

theorem due_of_not_evicting (h : s.evicting = false) (c : ContextId) :
    s.due c = dueOn ((s.stackOf c).getD []) := by
  simp [due, h]

theorem due_running (s : State) : s.due s.running =
    (if s.evicting = true then [some (sections s.stack)] else []) ++ dueOn s.stack := by
  simp [due, stackOf_running]

/-! ## Where a step leads -/

theorem stackOf_eq_none (hc : c ∉ contextKeys s.contexts) (hne : c ≠ s.running) :
    s.stackOf c = none := by
  rw [stackOf_of_ne hne]
  cases hparked : s.parked? c with
  | none => rfl
  | some stack => exact absurd (mem_contextKeys.mpr ⟨stack, hparked⟩) hc

theorem Goes.dueOn_of_ne (hgoes : s.Goes stack next s') (hc : c ≠ s.running) :
    dueOn ((s'.stackOf c).getD []) = dueOn ((s.stackOf c).getD []) := by
  rw [hgoes.stackOf, if_neg hc]
  split
  · rename_i hnewborn
    rw [stackOf_eq_none (hgoes.new c hnewborn) hc]
    rfl
  · rfl

/-- A step that brings no request changes what is due in the running context only. -/
theorem Goes.due_of_ne (hgoes : s.Goes stack next s')
    (hquiet : s'.evicting = true -> s'.running = s.running) (hc : c ≠ s.running) :
    s'.due c = s.due c := by
  have hthere : ¬ (c = s'.running ∧ s'.evicting = true) :=
    fun hthere => hc (hthere.1.trans (hquiet hthere.2))
  have hhere : ¬ (c = s.running ∧ s.evicting = true) := fun hhere => hc hhere.1
  simp only [due, hthere, hhere, if_false, hgoes.dueOn_of_ne hc]

theorem Goes.due_running (hgoes : s.Goes stack next s') (h : s.Sound lost)
    (hquiet : s'.evicting = false) : s'.due s.running = dueOn stack := by
  rw [due_of_not_evicting hquiet, hgoes.stackOf_running h]
  rfl

/-! ## Steps of note -/

section Landed

variable {source : ContextId} {signal : Signal} (hcontrol : s.control = .landed source signal)

include hcontrol

theorem abandoning?_landed : s.abandoning? = none := by simp [abandoning?, hcontrol]

theorem returnsBody_landed : s.returnsBody = false := by simp [returnsBody, hcontrol]

theorem isExiting_landed : s.isExiting = false := by simp [isExiting, hcontrol]

end Landed

theorem evicting_of_run (hrun : s.control = .run) : s.evicting = false := by simp [evicting, hrun]

/-- The entries of a step are the ones before those that were there. -/
theorem entries_eq {more : List LogEntry} (hlog : s'.world.log = entries ++ s.world.log)
    (hworld : s'.world = w) (hmore : w.log = more ++ s.world.log) : entries = more := by
  rw [hworld, hmore] at hlog
  exact (List.append_cancel_right hlog).symm

/-- A context that is wanted gone begins to unwind, or is over at once. -/
theorem Sound.discharges_evicting (h : s.Sound lost) (hstep : s.step = .active s')
    (hlog : s'.world.log = entries ++ s.world.log) (hevicting : s.evicting = true) :
    s.Discharges s' (milestones entries) := by
  have hlanded : exists r, s.control = .landed r (.message .eviction) := by
    unfold evicting at hevicting
    split at hevicting
    · rename_i r hcontrol
      exact ⟨r, hcontrol⟩
    · cases hevicting
  rcases hlanded with ⟨r, hcontrol⟩
  have hrest : AtRest s.stack := by
    cases h.arrives hcontrol with
    | eviction _ _ hrest => exact hrest
  rcases hrest with ⟨record, hstack⟩ | ⟨host, target, a, below, hstack⟩
  · have hmove : s.step = s.onward s.world (dropFirst (Closure.leftover record.body)
        [.base (.leaving record.lease (.unwound r))]) .run := by
      simp only [step, hcontrol, land, receive, hstack]
      rfl
    rcases h.goes hmove hstep with ⟨hworld, hgoes⟩
    have hnil : entries = [] := entries_eq hlog hworld rfl
    have hcalm : s'.evicting = false := evicting_of_run hgoes.control
    refine .nothing (abandoning?_landed hcontrol) (returnsBody_landed hcontrol)
      (isExiting_landed hcontrol) (by simp [hnil]) (by simp [hnil]) (by simp [hnil]) fun c => ?_
    by_cases hc : c = s.running
    · have hdrop := dueOn_dropFirst (Closure.leftover record.body)
        [.base (.leaving record.lease (.unwound r))] []
      rw [List.append_nil] at hdrop
      rw [hc, hgoes.due_running h hcalm, State.due_running, hstack, hevicting, hdrop]
      simp [Frame.due, Frame.isSection]
    · exact hgoes.due_of_ne (fun hev => by rw [hcalm] at hev; cases hev) hc
  · have hfiber : homeOf s.running = .fiber := by
      cases hkind : s.kind with
      | fiber => rw [<- h.kind, hkind]
      | native =>
          have hbreach : s.step = s.breach .nativeStackUnwound := by
            simp only [step, hcontrol, land, receive, hstack, hkind]
          cases hbreach.symm.trans hstep
    have hmove : s.step = s.onward (s.world.trace (.forcedUnwind r))
        (.discarding [] (some (.forced r)) :: .code a :: below) .run := by
      simp only [step, hcontrol, land, receive, hstack, h.kind.trans hfiber]
      rfl
    have hpos : 0 < sections below := by
      have hstands := h.stands
      simp only [Stands, hcontrol, hstack, hfiber] at hstands
      exact hstands.1.2.2.2.sections_pos (Or.inl hstands.1.2.2.1)
    rcases h.goes hmove hstep with ⟨hworld, hgoes⟩
    have hone : entries = [.traced (.forcedUnwind r)] := entries_eq hlog hworld rfl
    have hcalm : s'.evicting = false := evicting_of_run hgoes.control
    have hbefore : s.due s.running = some (sections below - 1 + 1) :: dueOn below := by
      rw [State.due_running, hstack, hevicting]
      simp [Frame.due, Frame.isSection, Nat.sub_add_cancel hpos]
    have hafter : s'.due s.running = some (sections below - 1) :: dueOn below := by
      rw [hgoes.due_running h hcalm]
      simp [Unwind.due, Frame.isSection]
    refine .forces (abandoning?_landed hcontrol) (returnsBody_landed hcontrol)
      (isExiting_landed hcontrol) (by rw [hone]; rfl) hbefore hafter fun d hd => ?_
    exact hgoes.due_of_ne (fun hev => by rw [hcalm] at hev; cases hev) hd

/-- A fiber is abandoned, and the request to unwind is on its way. -/
theorem Sound.discharges_abandoning (h : s.Sound lost) (hstep : s.step = .active s')
    (hlog : s'.world.log = entries ++ s.world.log) (habandoning : s.abandoning? = some c) :
    s.Discharges s' (milestones entries) := by
  unfold abandoning? at habandoning
  split at habandoning
  · rename_i name fiber rest cause below hrun hstack
    cases habandoning
    have hmove : s.step = s.onward (s.world.trace (.abandoned c))
        (.dropping :: .discarding rest cause :: below) (.leaves c (.message .eviction)) := by
      simp only [step, hrun, run, hstack, runDiscarding]
      rfl
    rcases h.goes hmove hstep with ⟨hworld, hgoes⟩
    have hone : entries = [.traced (.abandoned c)] := entries_eq hlog hworld rfl
    have htransfer : s.transfer (s.world.trace (.abandoned c))
        (.dropping :: .discarding rest cause :: below) c (.message .eviction) = .active s' :=
      hmove.symm.trans hstep
    rcases transfer_eq_active htransfer with ⟨there, hthere, hnil, heq⟩
    have hne : c ≠ s.running := by
      intro hc
      rw [hc, h.listed] at hthere
      exact hnil (Option.some.inj hthere).symm
    have hsame : dueOn ((s'.stackOf s.running).getD []) = dueOn s.stack := by
      rw [hgoes.stackOf_running h, hstack, Option.getD_some, dueOn_cons, dueOn_cons, dueOn_cons]
      simp [Frame.due]
    have hcalm : s.evicting = false := evicting_of_run hrun
    refine .abandons (by simp [abandoning?, hrun, hstack]) (by simp [returnsBody, hstack])
      (by simp [isExiting, hstack]) (by rw [hone]; rfl) hthere ?_ fun d hd => ?_
    · rw [due_of_not_evicting hcalm]
      have hthere' : s'.running = c ∧ s'.evicting = true ∧ s'.stack = there := by
        rw [heq]
        exact ⟨rfl, rfl, rfl⟩
      rw [due, hgoes.dueOn_of_ne hne, if_pos ⟨hthere'.1.symm, hthere'.2.1⟩, hthere'.2.2]
      rfl
    · have hrunning : s'.running = c := by rw [heq]; rfl
      rw [due_of_not_evicting hcalm, due, if_neg fun hthere => hd (hthere.1.trans hrunning)]
      by_cases hds : d = s.running
      · rw [hds, hsame, stackOf_running]
        rfl
      · rw [hgoes.dueOn_of_ne hds]
        rfl
  · cases habandoning

/-- A body is over that has returned a handle. -/
theorem Sound.discharges_returning (h : s.Sound lost) (hstep : s.step = .active s')
    (hlog : s'.world.log = entries ++ s.world.log) (hreturns : s.returnsBody = true) :
    s.Discharges s' (milestones entries) := by
  have hreturning := hreturns
  unfold returnsBody at hreturning
  split at hreturning
  · rename_i a lease below hrun hstack
    rcases Bool.and_eq_true_iff.mp hreturning with ⟨hblocks, hresult⟩
    have hlive : exists next, a.flow.result = .live next := by
      cases hold : a.flow.result with
      | empty => rw [hold] at hresult; cases hresult
      | live next => exact ⟨next, rfl⟩
    rcases hlive with ⟨next, hlive⟩
    have hmove : s.step = s.onward s.world (.base (.leaving lease (.returned next)) :: below)
        .run := by
      simp only [step, hrun, run, hstack, runCode, List.isEmpty_iff.mp hblocks, give, hlive]
      rfl
    have hbelow : below = [] := by
      have hstands := h.stands
      simp only [Stands, hrun, hstack] at hstands
      exact hstands.1.2.2.2
    rcases h.goes hmove hstep with ⟨hworld, hgoes⟩
    have hnil : entries = [] := entries_eq hlog hworld rfl
    have hcalm : s'.evicting = false := evicting_of_run hgoes.control
    refine .returns (by simp [abandoning?, hstack]) hreturns (by simp [isExiting, hstack])
      (by rw [hnil]; rfl) ?_ ?_ fun d hd => ?_
    · rw [State.due_running, hstack, hbelow, evicting_of_run hrun]
      simp [Frame.due]
    · rw [hgoes.due_running h hcalm, hbelow]
      rfl
    · exact hgoes.due_of_ne (fun hev => by rw [hcalm] at hev; cases hev) hd
  · cases hreturning

/-- Control leaves a fiber for good. -/
theorem Sound.discharges_exiting (h : s.Sound lost) (hstep : s.step = .active s')
    (hlog : s'.world.log = entries ++ s.world.log) (hexiting : s.isExiting = true) :
    s.Discharges s' (milestones entries) := by
  have hleaving := hexiting
  unfold isExiting at hleaving
  split at hleaving
  · rename_i lease ending below hrun hstack
    have hmove : s.step = s.onward (s.world.trace (.exiting lease.name))
        (.base (.exited lease) :: below) (.leaves ending.next .exit) := by
      simp only [step, hrun, run, hstack, runBase]
      rfl
    have hbelow : below = [] := by
      have hstands := h.stands
      simp only [Stands, hrun, hstack] at hstands
      exact hstands.1.2.2
    rcases h.goes hmove hstep with ⟨hworld, hgoes⟩
    have hone : entries = [.traced (.exiting lease.name)] := entries_eq hlog hworld rfl
    have hcalm : s'.evicting = false := by simp [evicting, hgoes.control, controlOf]
    have hdue : exists x, s.due s.running = [x] ∧ x.getD 0 = 0 := by
      rw [State.due_running, hstack, hbelow, evicting_of_run hrun]
      cases ending with
      | returned next => exact ⟨none, rfl, rfl⟩
      | unwound requester => exact ⟨some 0, rfl, rfl⟩
    rcases hdue with ⟨x, hdue, hbegun⟩
    refine .exits (by simp [abandoning?, hstack]) (by simp [returnsBody, hstack]) hexiting
      (by rw [hone]; rfl) hdue hbegun ?_ fun d hd => ?_
    · rw [hgoes.due_running h hcalm, hbelow]
      rfl
    · exact hgoes.due_of_ne (fun hev => by rw [hcalm] at hev; cases hev) hd
  · cases hleaving

/-! ## All other steps -/

/-- Any other step leaves alone what is due, on the stack or where it leads. -/
theorem Reworks.dueOn (h : s.Reworks old new entries next) (hsound : s.Sound lost)
    (hstack : s.stack = old ++ below) (hlossless : s.swallows = [])
    (hevicting : s.evicting = false) (habandoning : s.abandoning? = none)
    (hreturns : s.returnsBody = false) (hexiting : s.isExiting = false) :
    next.dueAt (sections (new ++ below)) ++ Fibers.dueOn (new ++ below) =
      Fibers.dueOn (old ++ below) := by
  cases h with
  | works hf hf' =>
      simp [Frame.due_of_isOrdinary hf, Frame.due_of_isOrdinary hf', Onward.dueAt]
  | panics hf => simp [Frame.due_of_isOrdinary hf, Unwind.due, Onward.dueAt]
  | departs hf hf' => simp [Frame.due_of_isOrdinary hf, Frame.due_of_isOrdinary hf', Onward.dueAt]
  | finishes hrun hblocks hlive =>
      simp [returnsBody, hrun, hstack, hblocks, hlive, Handle.isEmpty] at hreturns
  | returns hrun hblocks hmessage =>
      rename_i a source target message
      cases message <;> simp_all [Frame.due, Onward.dueAt]
  | @caught cause a a' _ hrun hforced =>
      cases cause with
      | panic payload => simp [Unwind.due, Onward.dueAt]
      | forced r =>
          have hlost := hforced r rfl
          rw [hlossless] at hlost
          cases hlost
  | closes hrun =>
      have hstands := hsound.stands
      simp only [Stands, hrun, hstack] at hstands
      have hbelow : below = [] := hstands.1.2.2.2.2
      simp [hbelow, Frame.due, Unwind.due, Frame.isSection, Onward.dueAt]
  | exits hrun => simp [isExiting, hrun, hstack] at hexiting
  | abandons hrun => simp [abandoning?, hrun, hstack] at habandoning
  | evicts hcontrol | evictsIdle hcontrol => simp [evicting, hcontrol] at hevicting
  | _ => simp [Frame.due, Unwind.due, Frame.isSection, Onward.dueAt]

theorem Reworks.milestones_of_not_due (h : s.Reworks old new entries next)
    (hstack : s.stack = old ++ below) (hevicting : s.evicting = false)
    (habandoning : s.abandoning? = none) (hexiting : s.isExiting = false) :
    (milestones entries).count .abandoned = 0 ∧ (milestones entries).count .forcedUnwind = 0 ∧
      (milestones entries).count .exiting = 0 := by
  cases h with
  | works _ _ _ hquiet | panics _ _ hquiet | departs _ _ _ _ hquiet | unwinds _ _ hquiet
  | caught _ _ _ hquiet | root _ hquiet => simp [hquiet.milestones]
  | fails _ hquiet | launches _ hquiet =>
      simp [hquiet.milestones, LogEntry.milestone?, TraceEvent.milestone?]
  | exits hrun => simp [isExiting, hrun, hstack] at hexiting
  | abandons hrun => simp [abandoning?, hrun, hstack] at habandoning
  | evicts hcontrol => simp [evicting, hcontrol] at hevicting
  | _ => simp [LogEntry.milestone?, TraceEvent.milestone?]

/-- No other step sends a request to another context. -/
theorem Reworks.evicting_of_not_due {stack : List Frame} (h : s.Reworks old new entries next)
    (hstack : s.stack = old ++ below) (habandoning : s.abandoning? = none)
    (hgoes : s.Goes stack next s') :
    (if s'.evicting = true then [some (sections stack)] else []) = next.dueAt (sections stack) ∧
      (s'.evicting = true -> s'.running = s.running) := by
  have hcontrol := hgoes.control
  cases h with
  | departs _ _ _ hsignal =>
      rcases hsignal with rfl | rfl | rfl <;> simp [evicting, hcontrol, controlOf, Onward.dueAt]
  | abandons hrun => simp [abandoning?, hrun, hstack] at habandoning
  | @returns a source target message =>
      have hstays := (hgoes.stays (Or.inr ⟨_, _, rfl⟩)).1
      cases message <;> simp_all [evicting, controlOf, Onward.dueAt]
  | redelivers =>
      have hstays := (hgoes.stays (Or.inr ⟨_, _, rfl⟩)).1
      simp [evicting, hcontrol, controlOf, Onward.dueAt, hstays]
  | _ => simp [evicting, hcontrol, controlOf, Onward.dueAt]

theorem Sound.due_answers {prober : ContextId} {query : Query} {reply : Reply}
    {purpose : ProbePurpose} {a : Activation} (h : s.Sound lost)
    (hcontrol : s.control = .landed prober (.message .query)) (hne : prober ≠ s.running)
    (hprober : s.parked? prober = some (.calling (.probe query none purpose) a :: below))
    (c : ContextId) :
    (s.hop s.world s.stack prober (.calling (.probe query (some reply) purpose) a :: below)
      (.message .handover)).due c = s.due c := by
  rw [due_of_not_evicting rfl, due_of_not_evicting (by simp [evicting, hcontrol]),
    stackOf_hop h.listed hprober hne]
  by_cases hc : c = prober
  · subst hc
    rw [if_pos rfl, stackOf_of_ne hne, hprober]
    rfl
  · rw [if_neg hc]
    by_cases hrunning : c = s.running
    · subst hrunning
      rw [if_pos rfl, stackOf_running]
    · rw [if_neg hrunning]

theorem due_calls {source : ContextId} {host : Host} {f : Closure} {target : SlotName}
    {a : Activation} (hcontrol : s.control = .landed source .onTop) (hne : source ≠ s.running)
    (hsource : s.parked? source = some (.calling (.resume host (some f) target) a :: below))
    (c : ContextId) :
    (s.topped source f (.calling (.resume host none target) a :: below)).due c = s.due c := by
  rw [due_of_not_evicting rfl, due_of_not_evicting (by simp [evicting, hcontrol])]
  by_cases hrunning : c = s.running
  · subst hrunning
    rw [stackOf_running, show s.running =
      (s.topped source f (.calling (.resume host none target) a :: below)).running from rfl,
      stackOf_running]
    rfl
  · have hne' : c ≠ (s.topped source f (.calling (.resume host none target) a :: below)).running :=
      hrunning
    rw [stackOf_of_ne hne', parked?_topped hsource, stackOf_of_ne hrunning]
    by_cases hc : c = source
    · subst hc
      rw [if_pos rfl, hsource]
      rfl
    · rw [if_neg hc]

theorem Releases.due {source : ContextId} {lease : Lease} (hr : s.Releases source lease s')
    (hcontrol : s.control = .landed source .exit) (hne : source ≠ s.running)
    (hsource : s.parked? source = some [.base (.exited lease)]) (c : ContextId) :
    s'.due c = s.due c := by
  rw [due_of_not_evicting (by simp [evicting, hr.control]),
    due_of_not_evicting (by simp [evicting, hcontrol])]
  unfold State.stackOf
  rw [hr.running, hr.stack, hr.parked?]
  by_cases hc : c = source
  · subst hc
    rw [if_neg hne, if_neg hne, if_pos rfl, hsource]
    rfl
  · rw [if_neg hc]

/-! ## One step -/

theorem Goes.due_running_eq (hgoes : s.Goes stack next s') (h : s.Sound lost)
    (hstays : s'.evicting = true -> s'.running = s.running) :
    s'.due s.running =
      (if s'.evicting = true then [some (sections stack)] else []) ++ dueOn stack := by
  have hthere := hgoes.stackOf_running h
  cases hevicting : s'.evicting with
  | false => rw [hgoes.due_running h hevicting]; rfl
  | true =>
      have hrunning := hstays hevicting
      rw [<- hrunning, State.stackOf_running] at hthere
      rw [<- hrunning, State.due_running, hevicting, Option.some.inj hthere]

/-- What a step of a run without losses does to what is due. -/
theorem Sound.discharges (h : s.Sound lost) (hlossless : s.swallows = [])
    (hstep : s.step = .active s') : exists entries, s'.world.log = entries ++ s.world.log ∧
      s.Discharges s' (milestones entries) := by
  rcases h.census hstep with ⟨row, entries, -, hlog, -, -⟩
  refine ⟨entries, hlog, ?_⟩
  cases hevicting : s.evicting with
  | true => exact h.discharges_evicting hstep hlog hevicting
  | false =>
  cases habandoning : s.abandoning? with
  | some c => exact h.discharges_abandoning hstep hlog habandoning
  | none =>
  cases hreturns : s.returnsBody with
  | true => exact h.discharges_returning hstep hlog hreturns
  | false =>
  cases hexiting : s.isExiting with
  | true => exact h.discharges_exiting hstep hlog hexiting
  | false =>
  cases h.passage hstep with
  | @reworks old new below entries' next hstack hreworks hgoes hlog' =>
      cases List.append_cancel_right (hlog.symm.trans hlog')
      rcases hreworks.milestones_of_not_due hstack hevicting habandoning hexiting with
        ⟨habandoned, hforced, hexited⟩
      rcases hreworks.evicting_of_not_due hstack habandoning hgoes with ⟨hlands, hstays⟩
      have hsame := hreworks.dueOn h hstack hlossless hevicting habandoning hreturns hexiting
      refine .nothing habandoning hreturns hexiting habandoned hforced hexited fun c => ?_
      by_cases hc : c = s.running
      · rw [hc, hgoes.due_running_eq h hstays, hlands, hsame, State.due_running, hevicting, hstack]
        rfl
      · exact hgoes.due_of_ne hstays hc
  | answers reply hcontrol hne hprober heq =>
      rw [heq] at hlog
      cases List.self_eq_append_left.mp hlog
      exact .nothing habandoning hreturns hexiting rfl rfl rfl
        (heq ▸ h.due_answers hcontrol hne hprober)
  | calls hcontrol hne hsource heq =>
      rw [heq] at hlog
      cases List.self_eq_append_left.mp hlog
      exact .nothing habandoning hreturns hexiting rfl rfl rfl
        (heq ▸ due_calls hcontrol hne hsource)
  | @releases source lease hcontrol hne hsource hreleases hlog' =>
      rw [List.append_cons] at hlog'
      cases List.append_cancel_right (hlog.symm.trans hlog')
      rw [milestones_append, milestones_returnLog]
      exact .nothing habandoning hreturns hexiting rfl rfl rfl (hreleases.due hcontrol hne hsource)

end State

end Fibers
