import Fibers.Proofs.Trace.Milestones

/-!
# A census of frames

The frames that a fiber has in the stages of its life, and those that its maker waits in, are counted
on the stacks of all contexts.  What a step does to them, and which milestones it logs with that, is
one of a few rows of a table.  So a milestone that is logged whenever a kind of frame comes up, and
another that is logged whenever it goes, are apart by the number of such frames.
-/

namespace Fibers

/-! ## Marks -/

/-- The frames that are counted. -/
inductive Mark where
  /-- A fiber has been made, and has yet to park. -/
  | creating
  /-- A fiber could not be made. -/
  | failing
  | unborn
  | idle
  | busy
  | leaving
  | exited
deriving DecidableEq

def FiberStage.mark : FiberStage -> Mark
  | unborn => .unborn
  | idle _ => .idle
  | busy _ => .busy
  | leaving _ _ => .leaving
  | exited _ => .exited

def Frame.mark? : Frame -> Option Mark
  | calling (.create _) _ => some .creating
  | calling (.failBuild _) _ => some .failing
  | base stage => some stage.mark
  | _ => none

def marksOf (stack : List Frame) : List Mark := stack.filterMap Frame.mark?

section Marks

variable {f : Frame} {stack below : List Frame}

@[simp] theorem marksOf_nil : marksOf [] = [] := rfl

@[simp] theorem marksOf_cons (f : Frame) (below : List Frame) :
    marksOf (f :: below) = f.mark?.toList ++ marksOf below := by
  cases h : f.mark? <;> simp [marksOf, h]

@[simp] theorem marksOf_append (stack below : List Frame) :
    marksOf (stack ++ below) = marksOf stack ++ marksOf below :=
  List.filterMap_append

@[simp] theorem marksOf_dropFirst (es : List Entry) (stack : List Frame) :
    marksOf (dropFirst es stack) = marksOf stack := by
  cases es <;> rfl

@[simp] theorem Frame.mark?_code (a : Activation) : (Frame.code a).mark? = none := rfl

@[simp] theorem Frame.mark?_discarding (es : List Entry) (cause : Option Unwind) :
    (Frame.discarding es cause).mark? = none := rfl

theorem Frame.mark?_of_isOrdinary (h : f.isOrdinary = true) : f.mark? = none := by
  cases f with
  | code a => rfl
  | calling call a => cases call <;> first | rfl | cases h
  | _ => cases h

end Marks

/-! ## The table -/

/-- What a step does to the frames that are counted, and the milestones that it logs. -/
structure Row where
  before : List Mark
  after : List Mark
  /-- The latest milestone first. -/
  logged : List Milestone
  /-- A fiber is made. -/
  makes : Bool
deriving DecidableEq

def stepTable : List Row :=
  [⟨[], [], [], false⟩, ⟨[], [], [.abandoned], false⟩, ⟨[], [], [.forcedUnwind], false⟩,
    ⟨[], [.failing], [.entered], false⟩, ⟨[], [.creating], [.registering, .entered], true⟩,
    ⟨[.creating], [], [.left, .created], false⟩, ⟨[.failing], [], [.left], false⟩,
    ⟨[.unborn], [.idle], [], false⟩, ⟨[.idle], [.busy], [.dispatching], false⟩,
    ⟨[.idle], [.leaving], [], false⟩, ⟨[.busy], [.leaving], [], false⟩,
    ⟨[.leaving], [.exited], [.exiting], false⟩, ⟨[.exited], [], [.releasing], false⟩]

namespace State

variable {s s' : State} {lost : List ContextId} {old new : List Frame} {entries : List LogEntry}
  {next : Onward}

theorem Reworks.mem_stepTable (h : s.Reworks old new entries next) :
    ⟨marksOf old, marksOf new, milestones entries, next.newborn?.isSome⟩ ∈ stepTable := by
  have hplain : (⟨[], [], [], false⟩ : Row) ∈ stepTable := by decide
  cases h with
  | works hf hf' _ hquiet | departs hf hf' _ _ hquiet =>
      simpa [Frame.mark?_of_isOrdinary hf, Frame.mark?_of_isOrdinary hf', hquiet.milestones,
        Onward.newborn?] using hplain
  | panics hf _ hquiet =>
      simpa [Frame.mark?_of_isOrdinary hf, hquiet.milestones, Onward.newborn?] using hplain
  | unwinds _ _ hquiet | caught _ _ _ hquiet | root _ hquiet =>
      simpa [Frame.mark?, hquiet.milestones, Onward.newborn?] using hplain
  | unwindsCall _ hmakes =>
      rename_i call a es _
      have hf : (Frame.calling call a).isOrdinary = true := by simp [Frame.isOrdinary, hmakes]
      simpa [Frame.mark?_of_isOrdinary hf, Onward.newborn?] using hplain
  | fails _ hquiet | launches _ hquiet =>
      simp [stepTable, Frame.mark?, LogEntry.milestone?, TraceEvent.milestone?, Onward.newborn?,
        hquiet.milestones]
  | _ =>
      simp [stepTable, Frame.mark?, FiberStage.mark, LogEntry.milestone?, TraceEvent.milestone?,
        Onward.newborn?]

end State

/-! ## All stacks -/

/-- A count over all contexts, one of which is changed. -/
theorem countP_flatMap_update {α : Type} {keys : List ContextId} {f g : ContextId -> List α}
    {c : ContextId} (p : α -> Bool) (hkeys : keys.Nodup) (hc : c ∈ keys)
    (hsame : forall d, d ∈ keys -> d ≠ c -> g d = f d) :
    (keys.flatMap g).countP p + (f c).countP p = (keys.flatMap f).countP p + (g c).countP p := by
  induction keys with
  | nil => cases hc
  | cons d rest ih =>
      rcases List.nodup_cons.mp hkeys with ⟨hd, hrest⟩
      simp only [List.flatMap_cons, List.countP_append]
      by_cases hdc : d = c
      · subst hdc
        have hothers : rest.flatMap g = rest.flatMap f := by
          refine congrArg List.flatten (List.map_congr_left fun e he => ?_)
          exact hsame e (List.mem_cons_of_mem _ he) fun heq => hd (heq ▸ he)
        rw [hothers]
        omega
      · have hmem : c ∈ rest := (List.mem_cons.mp hc).resolve_left fun heq => hdc heq.symm
        have hlater := ih hrest hmem fun e he => hsame e (List.mem_cons_of_mem _ he)
        rw [hsame d List.mem_cons_self hdc]
        omega

theorem flatMap_filter_ne {α : Type} (f : ContextId -> List α) (c : ContextId)
    (keys : List ContextId) :
    (keys.filter fun d => d ≠ c).flatMap f = keys.flatMap fun d => if d = c then [] else f d := by
  induction keys with
  | nil => rfl
  | cons d rest ih =>
      by_cases hd : d = c
      · simpa [hd] using ih
      · simpa [hd] using ih

namespace State

variable {s s' : State} {lost : List ContextId} {stack old new below : List Frame}
  {entries : List LogEntry} {next : Onward} {c : ContextId}

/-- The marks on the stack of a context. -/
def marksAt (s : State) (c : ContextId) : List Mark := marksOf ((s.stackOf c).getD [])

/-- The marks on all stacks. -/
def marks (s : State) : List Mark := (contextKeys s.contexts).flatMap s.marksAt

theorem Sound.running_mem (h : s.Sound lost) : s.running ∈ contextKeys s.contexts :=
  mem_contextKeys.mpr ⟨[], h.listed⟩

@[simp] theorem marksAt_running : s.marksAt s.running = marksOf s.stack := by
  rw [marksAt, stackOf_running, Option.getD_some]

theorem Goes.countP_marks (hgoes : s.Goes stack next s') (h : s.Sound lost) (p : Mark -> Bool) :
    s'.marks.countP p + (marksOf s.stack).countP p =
      s.marks.countP p + (marksOf stack).countP p +
        if next.newborn?.isSome then [Mark.unborn].countP p else 0 := by
  have hupdate : forall g : ContextId -> List Mark, g s.running = marksOf stack ->
      (forall d, d ∈ contextKeys s.contexts -> d ≠ s.running -> g d = s.marksAt d) ->
      ((contextKeys s.contexts).flatMap g).countP p + (marksOf s.stack).countP p =
        s.marks.countP p + (marksOf stack).countP p := by
    intro g hrunning hothers
    have hcount := countP_flatMap_update p h.keys h.running_mem hothers
    rwa [marksAt_running, hrunning] at hcount
  have hold : forall d, d ∈ contextKeys s.contexts -> next.newborn? ≠ some d := by
    intro d hd hnewborn
    exact hgoes.new d hnewborn hd
  have hrunning : s'.marksAt s.running = marksOf stack := by
    rw [marksAt, hgoes.stackOf, if_neg (hold _ h.running_mem), if_pos rfl]
    rfl
  have hothers : forall d, d ∈ contextKeys s.contexts -> d ≠ s.running ->
      s'.marksAt d = s.marksAt d := by
    intro d hd hne
    rw [marksAt, hgoes.stackOf, if_neg (hold d hd), if_neg hne]
    rfl
  have hcount := hupdate s'.marksAt hrunning hothers
  have hafter : s'.marks =
      (next.newborn?.toList ++ contextKeys s.contexts).flatMap s'.marksAt := by
    rw [marks, hgoes.keys]
  rw [hafter]
  cases hnewborn : next.newborn? with
  | none => simpa using hcount
  | some fiber =>
      have hborn : s'.marksAt fiber = [.unborn] := by
        rw [marksAt, hgoes.stackOf, if_pos hnewborn]
        rfl
      rw [Option.toList_some, List.singleton_append, List.flatMap_cons, List.countP_append, hborn,
        Option.isSome_some, if_pos rfl]
      omega

theorem marks_congr (hkeys : contextKeys s'.contexts = contextKeys s.contexts)
    (hsame : forall c, c ∈ contextKeys s.contexts -> s'.marksAt c = s.marksAt c) :
    s'.marks = s.marks := by
  unfold marks
  rw [hkeys]
  exact congrArg List.flatten (List.map_congr_left hsame)

theorem Sound.marks_answers {prober : ContextId} {query : Query} {reply : Reply}
    {purpose : ProbePurpose} {a : Activation} (h : s.Sound lost) (hne : prober ≠ s.running)
    (hprober : s.parked? prober = some (.calling (.probe query none purpose) a :: below)) :
    (s.hop s.world s.stack prober (.calling (.probe query (some reply) purpose) a :: below)
      (.message .handover)).marks = s.marks := by
  refine marks_congr (by simp [State.hop]) fun c _ => ?_
  rw [marksAt, stackOf_hop h.listed hprober hne]
  by_cases hc : c = prober
  · subst hc
    rw [if_pos rfl, marksAt, stackOf_of_ne hne, hprober]
    rfl
  · rw [if_neg hc]
    by_cases hrunning : c = s.running
    · subst hrunning
      rw [if_pos rfl, marksAt_running]
      rfl
    · rw [if_neg hrunning]
      rfl

theorem marks_calls {source : ContextId} {host : Host} {f : Closure} {target : SlotName}
    {a : Activation} (hne : source ≠ s.running)
    (hsource : s.parked? source = some (.calling (.resume host (some f) target) a :: below)) :
    (s.topped source f (.calling (.resume host none target) a :: below)).marks = s.marks := by
  refine marks_congr (by simp [topped]) fun c _ => ?_
  by_cases hrunning : c = s.running
  · subst hrunning
    rw [marksAt_running, marksAt, show s.running =
      (s.topped source f (.calling (.resume host none target) a :: below)).running from rfl,
      stackOf_running]
    rfl
  · have hne' : c ≠ (s.topped source f (.calling (.resume host none target) a :: below)).running :=
      hrunning
    rw [marksAt, stackOf_of_ne hne', parked?_topped hsource, marksAt, stackOf_of_ne hrunning]
    by_cases hc : c = source
    · subst hc
      rw [if_pos rfl, hsource]
      rfl
    · rw [if_neg hc]

theorem Releases.countP_marks {source : ContextId} {lease : Lease} (hr : s.Releases source lease s')
    (h : s.Sound lost) (hne : source ≠ s.running)
    (hsource : s.parked? source = some [.base (.exited lease)]) (p : Mark -> Bool) :
    s'.marks.countP p + [Mark.exited].countP p = s.marks.countP p := by
  have hmem : source ∈ contextKeys s.contexts := mem_contextKeys.mpr ⟨_, hsource⟩
  have hleft : s.marksAt source = [.exited] := by
    rw [marksAt, stackOf_of_ne hne, hsource]
    rfl
  have hothers : forall d, d ≠ source -> s'.marksAt d = s.marksAt d := by
    intro d hd
    unfold marksAt State.stackOf
    rw [hr.running, hr.stack, hr.parked?, if_neg hd]
  have hafter : s'.marks =
      (contextKeys s.contexts).flatMap fun d => if d = source then [] else s'.marksAt d := by
    rw [marks, hr.contexts, contextKeys_filter, flatMap_filter_ne]
  have hcount := countP_flatMap_update (f := s.marksAt)
    (g := fun d => if d = source then [] else s'.marksAt d) p h.keys hmem fun d _ hd => by
      rw [if_neg hd, hothers d hd]
  rw [if_pos rfl, hleft, List.countP_nil] at hcount
  rw [hafter]
  exact hcount

/-- A step changes the marks and the log by a row of the table. -/
theorem Sound.census (h : s.Sound lost) (hstep : s.step = .active s') :
    exists row entries, row ∈ stepTable ∧ s'.world.log = entries ++ s.world.log ∧
      milestones entries = row.logged ∧ forall p : Mark -> Bool,
        s'.marks.countP p + row.before.countP p =
          s.marks.countP p + row.after.countP p +
            if row.makes then [Mark.unborn].countP p else 0 := by
  have hplain : (⟨[], [], [], false⟩ : Row) ∈ stepTable := by decide
  have hreleasing : (⟨[.exited], [], [.releasing], false⟩ : Row) ∈ stepTable := by decide
  cases h.passage hstep with
  | reworks hstack hreworks hgoes hlog =>
      refine ⟨_, _, hreworks.mem_stepTable, hlog, rfl, fun p => ?_⟩
      have hcount := hgoes.countP_marks h p
      simp only [hstack, marksOf_append, List.countP_append] at hcount ⊢
      omega
  | answers reply hcontrol hne hprober heq =>
      exact ⟨_, [], hplain, by rw [heq]; rfl, rfl,
        fun p => by rw [heq, h.marks_answers hne hprober]; rfl⟩
  | calls hcontrol hne hsource heq =>
      exact ⟨_, [], hplain, by rw [heq]; rfl, rfl,
        fun p => by rw [heq, marks_calls hne hsource]; rfl⟩
  | @releases source lease hcontrol hne hsource hreleases hlog =>
      rw [List.append_cons] at hlog
      refine ⟨_, _, hreleasing, hlog, ?_, fun p => hreleases.countP_marks h hne hsource p⟩
      rw [milestones_append, milestones_returnLog]
      rfl

/-! ## While a fiber is made -/

end State

theorem CarriesCode.not_inCreate {stack : List Frame} (h : CarriesCode stack) :
    ¬ State.InCreate stack := by
  rintro ⟨slot, a, below, rfl⟩
  exact h

theorem InCode.not_inCreate {stack : List Frame} (h : InCode stack) : ¬ State.InCreate stack := by
  rintro ⟨slot, a, below, rfl⟩
  exact h

theorem CarriesDrop.not_inCreate {entries : List Entry} {stack : List Frame}
    (h : CarriesDrop entries stack) : ¬ State.InCreate stack := by
  rintro ⟨slot, a, below, rfl⟩
  exact h

/-- The maker of a fiber is at the top of its stack. -/
theorem Stacked.inCreate {k : StackKind} {stack : List Frame} (h : Stacked k stack)
    (hcreating : .creating ∈ marksOf stack) : State.InCreate stack := by
  induction stack with
  | nil => exact h.elim
  | cons f below ih =>
      rw [marksOf_cons, List.mem_append] at hcreating
      cases f with
      | code a => exact absurd (ih h.2 (hcreating.resolve_left nofun)) h.1.not_inCreate
      | calling call a =>
          cases call with
          | create slot => exact ⟨slot, a, below, rfl⟩
          | _ =>
              have hbelow := ih h.2.2.2 (hcreating.resolve_left (by simp [Frame.mark?]))
              exact absurd hbelow h.2.2.1.not_inCreate
      | discarding entries cause =>
          cases cause with
          | none => exact absurd (ih h.2 (hcreating.resolve_left nofun)) h.1.not_inCreate
          | some cause =>
              have hbelow := ih h.2.2 (hcreating.resolve_left nofun)
              rcases h.2.1 with hin | hcarries
              · exact absurd hbelow hin.not_inCreate
              · exact absurd hbelow hcarries.not_inCreate
      | dropping =>
          rcases ih h.2 (hcreating.resolve_left nofun) with ⟨slot, a, rest, rfl⟩
          exact h.1.elim
      | onTop source =>
          rcases ih h.2 (hcreating.resolve_left nofun) with ⟨slot, a, rest, rfl⟩
          cases h.1
      | base stage =>
          rcases h with ⟨-, -, rfl⟩
          rcases hcreating with hmark | hbelow
          · cases stage <;> simp [Frame.mark?, FiberStage.mark] at hmark
          · cases hbelow
      | root stage =>
          rcases h with ⟨-, rfl⟩
          rcases hcreating with hmark | hbelow
          · cases hmark
          · cases hbelow

namespace State

variable {s s' : State} {lost : List ContextId} {old new : List Frame} {entries : List LogEntry}
  {next : Onward}

/-- A fiber is being made only while control is on its way to it and back. -/
theorem Sound.making_of_creating (h : s.Sound lost) (hcreating : .creating ∈ s.marks) :
    (exists maker record, s.control = .landed maker (.start record)) ∨
      InCreate s.stack ∧ exists source, s.control = .landed source (.message .handover) := by
  rcases List.mem_flatMap.mp hcreating with ⟨c, -, hmark⟩
  unfold marksAt at hmark
  cases hstack : s.stackOf c with
  | none => rw [hstack] at hmark; cases hmark
  | some stack =>
      rw [hstack, Option.getD_some] at hmark
      rcases h.stackOf hstack with hstacked | rfl
      · rcases hstacked.inCreate hmark with ⟨slot, a, below, rfl⟩
        by_cases hc : c = s.running
        · subst hc
          have hrunning : s.stack = .calling (.create slot) a :: below :=
            Option.some.inj (stackOf_running.symm.trans hstack)
          have hstands := h.stands
          unfold Stands at hstands
          split at hstands
          · rw [hrunning] at hstands
            exact hstands.2.elim
          · rename_i source signal hcontrol
            refine Or.inr ⟨⟨slot, a, below, hrunning⟩, source, ?_⟩
            rw [hrunning] at hstands
            cases signal with
            | message message =>
                cases message with
                | handover => exact hcontrol
                | _ => simp [Lands, needOf] at hstands
            | start record => cases hstands.2.1
            | _ => simp [Lands, needOf] at hstands
        · rw [stackOf_of_ne hc] at hstack
          have htoken : .token .birth c ∈ s.holdings := by
            have hcount := h.count_token hstack .birth
            rw [if_pos (by rfl), count_lost_of_ne (by decide)] at hcount
            exact List.count_pos_iff.mp (by omega)
          have hwaits := control_of_token (by decide) (by decide) htoken
          cases hcontrol : s.control with
          | run => rw [hcontrol] at hwaits; cases hwaits
          | landed source signal =>
              rw [hcontrol] at hwaits
              cases signal with
              | start record => exact Or.inl ⟨source, record, rfl⟩
              | message message => cases message <;> simp [Control.holdings, Signal.holdings] at hwaits
              | _ => simp [Control.holdings, Signal.holdings] at hwaits
      · cases hmark with
        | tail _ hmark => cases hmark

/-- Nothing ends, and no body is called, while a fiber is made. -/
theorem Sound.not_creating (h : s.Sound lost) (hstep : s.step = .active s')
    (hlog : s'.world.log = entries ++ s.world.log)
    (hlogged : .exiting ∈ milestones entries ∨ .dispatching ∈ milestones entries) :
    .creating ∉ s.marks := by
  intro hcreating
  have hmaking := h.making_of_creating hcreating
  have hrun : s.control ≠ .run := by
    rcases hmaking with ⟨maker, record, hcontrol⟩ | ⟨-, source, hcontrol⟩ <;> simp [hcontrol]
  cases h.passage hstep with
  | @reworks old new below entries' next hstack hreworks hgoes hlog' =>
      cases List.append_cancel_right (hlog.symm.trans hlog')
      cases hreworks with
      | works _ _ _ hquiet | panics _ _ hquiet | departs _ _ _ _ hquiet | unwinds _ _ hquiet
      | caught _ _ _ hquiet | root _ hquiet => simp [hquiet.milestones] at hlogged
      | fails _ hquiet | launches _ hquiet =>
          simp [hquiet.milestones, LogEntry.milestone?, TraceEvent.milestone?] at hlogged
      | exits hcontrol => exact hrun hcontrol
      | dispatches hcontrol =>
          rcases hmaking with ⟨maker, record, hstart⟩ | ⟨⟨slot, a, low, hcreate⟩, -⟩
          · cases hcontrol.symm.trans hstart
          · cases hstack.symm.trans hcreate
      | _ => simp [LogEntry.milestone?, TraceEvent.milestone?] at hlogged
  | answers reply hcontrol hne hprober heq =>
      rw [heq] at hlog
      have hnil : entries = [] := List.self_eq_append_left.mp hlog
      simp [hnil] at hlogged
  | calls hcontrol hne hsource heq =>
      rw [heq] at hlog
      have hnil : entries = [] := List.self_eq_append_left.mp hlog
      simp [hnil] at hlogged
  | @releases source lease hcontrol hne hsource hreleases hlog' =>
      rcases hmaking with ⟨maker, record, hstart⟩ | ⟨-, maker, hhandover⟩
      · cases hcontrol.symm.trans hstart
      · cases hcontrol.symm.trans hhandover

end State

/-! ## Accounts -/

/-- Two milestones, and the marks of the frames that come with one of them and go with the other. -/
structure Account where
  opening : Milestone
  closing : Milestone
  holds : Mark -> Bool

namespace Account

/-- Fibers that have been made, and have yet to park. -/
def making : Account := ⟨.registering, .created, fun m => m = .creating⟩

/-- Fibers that have not come to their end. -/
def living : Account :=
  ⟨.registering, .exiting, fun m => m = .unborn ∨ m = .idle ∨ m = .busy ∨ m = .leaving⟩

/-- Fibers whose stacks have yet to be given back. -/
def leaving : Account := ⟨.exiting, .releasing, fun m => m = .exited⟩

/-- Spans in which a fiber is made, or cannot be. -/
def inSpan : Account := ⟨.entered, .left, fun m => m = .creating ∨ m = .failing⟩

/-- Fibers whose bodies have not been called.  Some are unwound before. -/
def waiting : Account := ⟨.registering, .dispatching, fun m => m = .unborn ∨ m = .idle⟩

/-- What a step takes from an account, and what is there after it. -/
def spent (a : Account) (r : Row) : Nat :=
  r.logged.count a.closing + r.after.countP a.holds +
    if r.makes then [Mark.unborn].countP a.holds else 0

/-- What a step brings to an account, and what was there before it. -/
def earned (a : Account) (r : Row) : Nat := r.logged.count a.opening + r.before.countP a.holds

def Balanced (a : Account) : Prop := forall r, r ∈ stepTable -> a.spent r = a.earned r

/-- No step takes more than there is. -/
def Covered (a : Account) : Prop := forall r, r ∈ stepTable -> a.spent r ≤ a.earned r

instance (a : Account) : Decidable a.Balanced :=
  inferInstanceAs (Decidable (forall r, r ∈ stepTable -> a.spent r = a.earned r))

instance (a : Account) : Decidable a.Covered :=
  inferInstanceAs (Decidable (forall r, r ∈ stepTable -> a.spent r ≤ a.earned r))

theorem Balanced.covered {a : Account} (h : a.Balanced) : a.Covered :=
  fun r hr => Nat.le_of_eq (h r hr)

theorem balanced_making : making.Balanced := by decide

theorem balanced_living : living.Balanced := by decide

theorem balanced_leaving : leaving.Balanced := by decide

theorem balanced_inSpan : inSpan.Balanced := by decide

theorem covered_waiting : waiting.Covered := by decide

/-- What a step changes of an account. -/
theorem step {s s' : State} {lost : List ContextId} (a : Account) (h : s.Sound lost)
    (hstep : s.step = .active s') : exists r, r ∈ stepTable ∧
      countOf a.closing s'.world.log + s'.marks.countP a.holds + a.earned r +
          countOf a.opening s.world.log =
        countOf a.closing s.world.log + s.marks.countP a.holds + a.spent r +
          countOf a.opening s'.world.log := by
  rcases h.census hstep with ⟨r, entries, hr, hlog, hlogged, hmarks⟩
  have hholds := hmarks a.holds
  have hentries : forall m, countOf m entries = r.logged.count m := fun m => by
    rw [countOf, hlogged]
  refine ⟨r, hr, ?_⟩
  simp only [earned, spent, hlog, countOf_append, hentries]
  omega

end Account

namespace Program.Reaches

variable {p : Program} {past : List State} {s : State}

theorem balanced (h : p.Reaches past s) {a : Account} (ha : a.Balanced) :
    countOf a.closing s.world.log + s.marks.countP a.holds = countOf a.opening s.world.log := by
  induction h with
  | start => rfl
  | step hreach hstep ih =>
      rcases a.step hreach.sound hstep with ⟨r, hr, hchange⟩
      have hrow := ha r hr
      omega

theorem covered (h : p.Reaches past s) {a : Account} (ha : a.Covered) :
    countOf a.closing s.world.log + s.marks.countP a.holds ≤ countOf a.opening s.world.log := by
  induction h with
  | start => exact Nat.le_refl 0
  | step hreach hstep ih =>
      rcases a.step hreach.sound hstep with ⟨r, hr, hchange⟩
      have hrow := ha r hr
      omega

/-- Fibers exit, and bodies are called, no more often than fibers have been created. -/
theorem le_created (h : p.Reaches past s) {a : Account} (ha : a.Covered)
    (hopening : a.opening = .registering)
    (hclosing : a.closing = .exiting ∨ a.closing = .dispatching) :
    countOf a.closing s.world.log ≤ countOf .created s.world.log := by
  induction h with
  | start => exact Nat.le_refl 0
  | @step past s s' hreach hstep ih =>
      rcases hreach.sound.census hstep with ⟨r, entries, hr, hlog, hlogged, -⟩
      by_cases hmem : a.closing ∈ milestones entries
      · have hcreating : .creating ∉ s.marks := by
          refine hreach.sound.not_creating hstep hlog ?_
          rcases hclosing with hm | hm
          · exact Or.inl (hm ▸ hmem)
          · exact Or.inr (hm ▸ hmem)
        have hnone : s.marks.countP Account.making.holds = 0 := by
          rw [List.countP_eq_zero]
          intro m hm hmaking
          have hcreating' : m = .creating := by simpa [Account.making] using hmaking
          exact hcreating (hcreating' ▸ hm)
        have hmade := hreach.balanced Account.balanced_making
        have hafter := (Reaches.step hreach hstep).covered ha
        have hmade' : countOf .registering s'.world.log = countOf .registering s.world.log := by
          have hrow : r.logged.count .registering = 0 := by
            have htable : forall r, r ∈ stepTable -> .exiting ∈ r.logged ∨ .dispatching ∈ r.logged ->
                r.logged.count .registering = 0 := by decide
            refine htable r hr ?_
            rw [<- hlogged]
            rcases hclosing with hm | hm
            · exact Or.inl (hm ▸ hmem)
            · exact Or.inr (hm ▸ hmem)
          rw [hlog, countOf_append, countOf, hlogged, hrow, Nat.zero_add]
        have hcreated : countOf .created s.world.log ≤ countOf .created s'.world.log := by
          rw [hlog, countOf_append]
          exact Nat.le_add_left _ _
        rw [hopening] at hafter
        simp only [Account.making] at hmade hnone
        omega
      · have hnone : countOf a.closing entries = 0 := List.count_eq_zero.mpr hmem
        rw [hlog, countOf_append, countOf_append, hnone]
        omega

end Program.Reaches

/-! ## In the middle of a log -/

/-- The first of each two is never logged more often than the second. -/
def milestoneOrder : List (Milestone × Milestone) :=
  [(.releasing, .exiting), (.exiting, .created), (.created, .registering), (.dispatching, .created)]

namespace Program.Reaches

variable {p : Program} {past : List State} {s : State} {m n : Milestone}

theorem countOf_le (h : p.Reaches past s) (horder : (m, n) ∈ milestoneOrder) :
    countOf m s.world.log ≤ countOf n s.world.log := by
  have hleaving := h.balanced Account.balanced_leaving
  have hmaking := h.balanced Account.balanced_making
  simp only [Account.leaving, Account.making] at hleaving hmaking
  simp only [milestoneOrder, List.mem_cons, List.not_mem_nil, or_false, Prod.mk.injEq] at horder
  rcases horder with ⟨rfl, rfl⟩ | ⟨rfl, rfl⟩ | ⟨rfl, rfl⟩ | ⟨rfl, rfl⟩
  · omega
  · exact h.le_created Account.balanced_living.covered rfl (Or.inl rfl)
  · omega
  · exact h.le_created Account.covered_waiting rfl (Or.inr rfl)

/-- This holds of every part of the log that is there at some time. -/
theorem countOf_le_of_suffix (h : p.Reaches past s) (horder : (m, n) ∈ milestoneOrder)
    {log : List LogEntry} (hlog : log <:+ s.world.log) : countOf m log ≤ countOf n log := by
  induction h with
  | start =>
      cases List.suffix_nil.mp hlog
      exact Nat.le_refl 0
  | @step past s s' hreach hstep ih =>
      rcases hreach.sound.census hstep with ⟨r, entries, hr, hafter, hlogged, -⟩
      have hcount := hreach.countOf_le horder
      have hcount' := (Reaches.step hreach hstep).countOf_le horder
      have hone : countOf m entries = 0 ∨ countOf n entries = 0 := by
        have htable : forall r, r ∈ stepTable -> forall pair, pair ∈ milestoneOrder ->
            r.logged.count pair.1 = 0 ∨ r.logged.count pair.2 = 0 := by decide
        simp only [countOf, hlogged]
        exact htable r hr (m, n) horder
      rw [hafter] at hlog hcount'
      rcases hlog with ⟨top, htop⟩
      rcases List.append_eq_append_iff.mp htop with ⟨mid, hentries, rfl⟩ | ⟨top, -, hold⟩
      · exact Fibers.countOf_le_of_suffix hone ⟨top, hentries.symm⟩ hcount hcount'
      · exact ih ⟨top, hold.symm⟩

end Program.Reaches

end Fibers
