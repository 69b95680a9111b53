import Fibers.Proofs.Trace.Passage
import Mathlib.Data.List.Chain

/-!
# Milestones in the log

Some of the events in the lives of fibers are counted, whichever fibers they are about.  Two of them
are never left alone: once a stack is registered nothing else is logged until its fiber is created,
and once a fiber exits nothing else until its stack is released.
-/

namespace Fibers

/-! ## Milestones -/

/-- The events that are counted, without what they tell of a fiber. -/
inductive Milestone where
  | entered
  | left
  | registering
  | created
  | dispatching
  | abandoned
  | forcedUnwind
  | exiting
  | releasing
deriving DecidableEq

def TraceEvent.milestone? : TraceEvent -> Option Milestone
  | spanEntered => some .entered
  | spanLeft => some .left
  | registering _ => some .registering
  | created _ => some .created
  | dispatching _ => some .dispatching
  | abandoned _ => some .abandoned
  | forcedUnwind _ => some .forcedUnwind
  | exiting _ => some .exiting
  | releasing _ => some .releasing
  | _ => none

def LogEntry.milestone? : LogEntry -> Option Milestone
  | traced e => e.milestone?
  | _ => none

def milestones (log : List LogEntry) : List Milestone := log.filterMap LogEntry.milestone?

/-- How often a milestone is in a log. -/
def countOf (m : Milestone) (log : List LogEntry) : Nat := (milestones log).count m

section Counting

variable {m n : Milestone} {entries log : List LogEntry}

@[simp] theorem milestones_nil : milestones [] = [] := rfl

@[simp] theorem milestones_cons (e : LogEntry) (log : List LogEntry) :
    milestones (e :: log) = e.milestone?.toList ++ milestones log := by
  cases h : e.milestone? <;> simp [milestones, h]

@[simp] theorem milestones_append (entries log : List LogEntry) :
    milestones (entries ++ log) = milestones entries ++ milestones log :=
  List.filterMap_append

@[simp] theorem countOf_append (m : Milestone) (entries log : List LogEntry) :
    countOf m (entries ++ log) = countOf m entries + countOf m log := by
  simp [countOf]

/-- If the first of two milestones is never ahead, it is not so in the middle of a step either. -/
theorem countOf_le_of_suffix {mid : List LogEntry}
    (hone : countOf m entries = 0 ∨ countOf n entries = 0) (hmid : mid <:+ entries)
    (hlog : countOf m log ≤ countOf n log)
    (hafter : countOf m (entries ++ log) ≤ countOf n (entries ++ log)) :
    countOf m (mid ++ log) ≤ countOf n (mid ++ log) := by
  rcases hmid with ⟨top, rfl⟩
  simp only [countOf_append] at hone hafter ⊢
  omega

end Counting

theorem LogEntry.milestone?_of_life? {e : LogEntry} (h : e.life? = none) : e.milestone? = none := by
  cases e with
  | traced e => cases e <;> first | rfl | cases h
  | _ => rfl

theorem State.Uneventful.milestones {s : State} {entries : List LogEntry}
    (h : s.Uneventful entries) : Fibers.milestones entries = [] := by
  rw [Fibers.milestones, List.filterMap_eq_nil_iff]
  exact fun e he => LogEntry.milestone?_of_life? (h e he).1

theorem milestones_returnLog (k : StackKind) (lease : Lease) :
    milestones (lease.returnLog k) = [] := by
  rw [milestones, List.filterMap_eq_nil_iff]
  intro e he
  rcases List.mem_map.mp he with ⟨label, -, rfl⟩
  rfl

/-! ## What follows at once -/

/-- The entries after which another one is due. -/
def LogEntry.isOpening : LogEntry -> Bool
  | traced (.registering _) | traced (.exiting _) => true
  | _ => false

/-- What has to be logged next. -/
inductive LogEntry.Completes : LogEntry -> LogEntry -> Prop where
  | created (fiber : ContextId) (stack : Region) :
      Completes (.traced (.created fiber)) (.traced (.registering stack))
  | releasing (name : Option String) :
      Completes (.traced (.releasing name)) (.traced (.exiting name))

/-- No entry of a log, the latest first, is left without what has to follow. -/
def Completed (log : List LogEntry) : Prop :=
  log.IsChain fun e' e => e.isOpening = true -> e'.Completes e

theorem Completed.append {entries log : List LogEntry} (h : Completed log)
    (hlast : forall e', e' ∈ entries.getLast? -> forall e, e ∈ log.head? -> e.isOpening = true ->
      e'.Completes e)
    (hclosed : forall e, e ∈ entries.tail -> e.isOpening = false) : Completed (entries ++ log) := by
  refine List.isChain_append.mpr ⟨?_, h, hlast⟩
  clear hlast
  induction entries with
  | nil => exact .nil
  | cons f entries ih =>
      have hrest := ih fun e he => hclosed e (List.mem_of_mem_tail he)
      cases entries with
      | nil => exact .singleton _
      | cons g entries =>
          have hg : g.isOpening = false := hclosed g List.mem_cons_self
          exact .cons_cons (fun hopens => by rw [hg] at hopens; cases hopens) hrest

namespace State

variable {s s' : State} {lost : List ContextId} {old new : List Frame} {entries : List LogEntry}
  {next : Onward} {e : LogEntry}

theorem isOpening_released {k : StackKind} {lease : Lease} {name : Option String}
    (he : e ∈ lease.returnLog k ++ [.traced (.releasing name)]) : e.isOpening = false := by
  rcases List.mem_append.mp he with hreturned | hreleasing
  · rcases List.mem_map.mp hreturned with ⟨label, -, rfl⟩
    rfl
  · cases List.mem_singleton.mp hreleasing
    rfl

/-- An entry has been logged, and what has to follow has not. -/
inductive Owes (s : State) : LogEntry -> Prop where
  | starting {maker : ContextId} {record : Option Record} (stack : Region) :
      s.control = .landed maker (.start record) -> Owes s (.traced (.registering stack))
  | started {fiber : ContextId} (stack : Region) :
      s.control = .landed fiber (.message .handover) -> InCreate s.stack ->
        Owes s (.traced (.registering stack))
  | exited {fiber : ContextId} {lease : Lease} :
      s.control = .landed fiber .exit -> s.parked? fiber = some [.base (.exited lease)] ->
        Owes s (.traced (.exiting lease.name))

theorem Owes.isOpening (h : s.Owes e) : e.isOpening = true := by
  cases h <;> rfl

/-- Until then control goes on its way, and nothing else is logged. -/
theorem Sound.pays (h : s.Sound lost) (howes : s.Owes e) :
    exists s', s.step = .active s' ∧ (s'.world.log = s.world.log ∧ s'.Owes e ∨
      exists entries e', s'.world.log = entries ++ e' :: s.world.log ∧ e'.Completes e ∧
        forall f, f ∈ entries ++ [e'] -> f.isOpening = false) := by
  cases howes with
  | @starting maker record stack hcontrol =>
      cases h.arrives hcontrol with
      | @start there record hmaker hcreate hstack hformed =>
          have hstep : s.step =
              s.transfer s.world [.base (.idle record)] maker (.message .handover) := by
            simp only [step, hcontrol, land, State.start, hstack]
          rcases hcreate with ⟨slot, a, below, rfl⟩
          rw [transfer_eq_hop hmaker (List.cons_ne_nil _ _)] at hstep
          exact ⟨_, hstep, Or.inl ⟨rfl, .started stack rfl ⟨slot, a, below, rfl⟩⟩⟩
  | @started fiber stack hcontrol hcreate =>
      rcases hcreate with ⟨slot, a, below, hstack⟩
      have hstep : s.step = s.go ((s.world.trace (.created fiber)).trace .spanLeft)
          (.calling (.store [(slot, .live fiber)] none) a :: below) := by
        simp only [step, hcontrol, land, receive, hstack]
      refine ⟨_, hstep, Or.inr ⟨[.traced .spanLeft], _, rfl, .created fiber stack, ?_⟩⟩
      simp [LogEntry.isOpening]
  | @exited fiber lease hcontrol hparked =>
      rcases h.release hcontrol with ⟨lease', s', hsource, hmove, hreleases, hsound⟩
      cases hparked.symm.trans hsource
      have hstep : s.step = s.release fiber := by simp only [step, hcontrol, land]
      refine ⟨s', hstep.trans hmove, Or.inr ⟨lease.returnLog (homeOf s.running), _,
        hsound.log_of_release hsource hmove, .releasing _, fun f hf => isOpening_released hf⟩⟩

theorem Uneventful.isOpening (h : s.Uneventful entries) (he : e ∈ entries) :
    e.isOpening = false := by
  have hlife := (h e he).1
  cases e with
  | traced e => cases e <;> first | rfl | cases hlife
  | _ => rfl

/-- Only the last entry of a step can be one after which another is due. -/
theorem Reworks.isOpening_tail (h : s.Reworks old new entries next) (he : e ∈ entries.tail) :
    e.isOpening = false := by
  cases h with
  | works _ _ _ hquiet | panics _ _ hquiet | departs _ _ _ _ hquiet | unwinds _ _ hquiet
  | caught _ _ _ hquiet | root _ hquiet => exact hquiet.isOpening (List.mem_of_mem_tail he)
  | fails _ hquiet =>
      rcases mem_making (List.mem_of_mem_tail he) with hmem | rfl | rfl
      · exact hquiet.isOpening hmem
      · rfl
      · rfl
  | launches _ hquiet =>
      rcases mem_making he with hmem | rfl | rfl
      · exact hquiet.isOpening hmem
      · rfl
      · rfl
  | born | failed =>
      cases List.mem_singleton.mp he
      rfl
  | _ => cases he

theorem Reworks.owes {below : List Frame} (h : s.Reworks old new entries next)
    (hsound : s'.Sound lost) (hgoes : s.Goes (new ++ below) next s') (he : e ∈ entries.head?)
    (hopens : e.isOpening = true) : s'.Owes e := by
  have hquiet : forall quiet, s.Uneventful quiet -> e ∈ quiet -> s'.Owes e := by
    intro quiet hquiet hmem
    rw [hquiet.isOpening hmem] at hopens
    cases hopens
  cases h with
  | works _ _ _ hentries | panics _ _ hentries | departs _ _ _ _ hentries
  | unwinds _ _ hentries | caught _ _ _ hentries | root _ hentries =>
      exact hquiet _ hentries (List.mem_of_mem_head? he)
  | fails _ hentries =>
      rcases mem_making (List.mem_of_mem_head? he) with hmem | rfl | rfl
      · exact hquiet _ hentries hmem
      · cases hopens
      · cases hopens
  | launches =>
      cases he
      exact .starting _ hgoes.control
  | exits =>
      cases he
      have hstack := hgoes.stackOf s.running
      rw [if_neg nofun, if_pos rfl] at hstack
      cases hsound.arrives hgoes.control with
      | @exit lease hparked =>
          have hne := hsound.ne_running hparked (show needOf _ = some .remains from rfl)
          rw [stackOf_of_ne hne, hparked] at hstack
          cases hstack
          exact .exited hgoes.control hparked
  | born | failed | unwindsBuild | drops | dropsActing | abandons | dispatches | evicts =>
      cases he
      cases hopens
  | _ => cases he

/-- The log is complete but for its last entry. -/
structure Completing (s : State) : Prop where
  log : Completed s.world.log
  last : forall e, e ∈ s.world.log.head? -> e.isOpening = true -> s.Owes e

theorem Completing.step (h : s.Completing) (hsound : s.Sound lost) (hstep : s.step = .active s') :
    s'.Completing := by
  have hafter := (hsound.move hstep).2
  by_cases howes : exists e, e ∈ s.world.log.head? ∧ e.isOpening = true
  · rcases howes with ⟨e, he, hopens⟩
    rcases hsound.pays (h.last e he hopens) with ⟨s'', hmove, hpays⟩
    cases hmove.symm.trans hstep
    rcases hpays with ⟨hlog, howes⟩ | ⟨entries, e', hlog, hcompletes, hclosed⟩
    · refine ⟨hlog ▸ h.log, fun f hf _ => ?_⟩
      rw [hlog] at hf
      cases Option.mem_unique he hf
      exact howes
    · rw [List.append_cons] at hlog
      refine ⟨?_, ?_⟩
      · rw [hlog]
        refine h.log.append ?_ fun f hf => hclosed f (List.mem_of_mem_tail hf)
        intro f' hf' f hf _
        rw [List.getLast?_concat] at hf'
        cases hf'
        cases Option.mem_unique he hf
        exact hcompletes
      · intro f hf hopens'
        rw [hlog, List.head?_append_of_ne_nil _ (by simp)] at hf
        rw [hclosed f (List.mem_of_mem_head? hf)] at hopens'
        cases hopens'
  · have hclosed : forall e, e ∈ s.world.log.head? -> e.isOpening = true -> False :=
      fun e he hopens => howes ⟨e, he, hopens⟩
    have hsame : s'.world.log = s.world.log -> s'.Completing := fun hlog =>
      ⟨hlog ▸ h.log, fun e he hopens => (hclosed e (hlog ▸ he) hopens).elim⟩
    have hmore : forall entries, entries ≠ [] -> s'.world.log = entries ++ s.world.log ->
        (forall e, e ∈ entries.tail -> e.isOpening = false) ->
        (forall e, e ∈ entries.head? -> e.isOpening = true -> s'.Owes e) -> s'.Completing := by
      intro entries hnil hlog htail hhead
      refine ⟨?_, ?_⟩
      · rw [hlog]
        exact h.log.append (fun _ _ e he hopens => (hclosed e he hopens).elim) htail
      · rw [hlog, List.head?_append_of_ne_nil _ hnil]
        exact hhead
    cases hsound.passage hstep with
    | @reworks old new below entries next hstack hreworks hgoes hlog =>
        by_cases hnil : entries = []
        · exact hsame (by rw [hlog, hnil]; rfl)
        · exact hmore entries hnil hlog (fun e he => hreworks.isOpening_tail he)
            fun e he hopens => hreworks.owes hafter hgoes he hopens
    | answers reply hcontrol hne hprober heq => exact hsame (by rw [heq]; rfl)
    | calls hcontrol hne hsource heq => exact hsame (by rw [heq]; rfl)
    | @releases source lease hcontrol hne hsource hreleases hlog =>
        rw [List.append_cons] at hlog
        refine hmore _ (by simp) hlog (fun e he => isOpening_released (List.mem_of_mem_tail he)) ?_
        intro e he hopens
        rw [isOpening_released (List.mem_of_mem_head? he)] at hopens
        cases hopens

end State

theorem Program.Reaches.completing {p : Program} {past : List State} {s : State}
    (h : p.Reaches past s) : s.Completing := by
  induction h with
  | start => exact ⟨.nil, nofun⟩
  | step hreach hstep ih => exact ih.step hreach.sound hstep

end Fibers
