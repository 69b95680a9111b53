import Fibers.Proofs.Abandon.Run
import Fibers.Proofs.Locality.Run

/-!
# Drops above waiting frames

Entries that run no code of their own are dropped one after another, above frames that wait for the end
of that.  The drop of a handle leads into another context, where all kinds of things can happen, and
comes back when that context is gone.  Until the last entry is dropped, or the run has ended, nothing
looks at the frames below.  So all of it goes on in the same way above other frames.
-/

namespace Fibers

namespace State

variable {s s' : State} {c : ContextId} {cause : Option Unwind} {low : List Frame}
  {es : List Entry} {lost : List ContextId}

/-! ## One step -/

/-- About to drop the first of some entries, or to go on below if there are none. -/
structure AtDrop (s : State) (c : ContextId) (cause : Option Unwind) (low : List Frame)
    (es : List Entry) : Prop where
  running : s.running = c
  control : s.control = .run
  stack : s.stack = .discarding es cause :: low

/-- A context has so much left to drop: it is about to, or it waits for a fiber to be gone. -/
inductive Drops (s : State) (c : ContextId) (cause : Option Unwind) (low : List Frame)
    (es : List Entry) : Prop where
  | going : s.AtDrop c cause low es -> Drops s c cause low es
  | waiting : s.stackOf c = some (.dropping :: .discarding es cause :: low) ->
      Drops s c cause low es

theorem Drops.stackOf (h : s.Drops c cause low es) :
    s.stackOf c = some (.discarding es cause :: low) ∨
      s.stackOf c = some (.dropping :: .discarding es cause :: low) := by
  cases h with
  | going hat =>
      rw [<- hat.running, stackOf_running, hat.stack]
      exact Or.inl rfl
  | waiting hstack => exact Or.inr hstack

/-- At the end of a drop nothing is left. -/
theorem Drops.eq_nil (h : s.Drops c cause low es) (hat : s.AtDrop c cause low []) : es = [] := by
  rcases h.stackOf with hstack | hstack
  all_goals
    rw [<- hat.running, stackOf_running, hat.stack] at hstack
    cases hstack
  rfl

/-- Where a fiber is waited for, only its end can arrive. -/
theorem Sound.arrives_dropping {below : List Frame} (h : s.Sound lost)
    (hstack : s.stack = .dropping :: below) :
    exists source, s.control = .landed source (.message .farewell) ∨
      s.control = .landed source .exit := by
  have hrest : ¬ AtRest s.stack := by
    rw [hstack]
    rintro (⟨record, heq⟩ | ⟨host, target, a, below', heq⟩) <;> cases heq
  cases hcontrol : s.control with
  | run =>
      have hstands := h.stands
      simp only [Stands, hcontrol, hstack] at hstands
      exact False.elim hstands.2
  | landed source signal =>
      have harrives := h.arrives hcontrol
      cases harrives with
      | farewell hplace => exact ⟨source, Or.inl rfl⟩
      | exit hparked hplace => exact ⟨source, Or.inr rfl⟩
      | handover hparked hthere hplace =>
          rw [hstack] at hplace hrest
          rcases hplace with
            hplace | ⟨slot, a, below', heq⟩ | ⟨query, reply, purpose, a, below', heq, -⟩
          · exact absurd hplace hrest
          · cases heq
          · cases heq
      | eviction hparked hthere hplace => exact absurd hplace hrest
      | query hparked hquery hplace => exact absurd hplace hrest
      | onTop hparked hplace => exact absurd hplace hrest
      | start hparked hcreate hunborn hrecord =>
          rw [hstack] at hunborn
          cases hunborn

/-- A step leaves as much to drop, or one entry less. -/
theorem Sound.drops_step (h : s.Sound lost) (hplain : es.all Entry.isPlain = true)
    (hdrops : s.Drops c cause low es) (hmore : ¬ s.AtDrop c cause low [])
    (hstep : s.step = .active s') :
    s'.Drops c cause low es ∧ ¬ s.AtDrop c cause low es ∨
      exists e rest, es = e :: rest ∧ s.AtDrop c cause low es ∧ s'.Drops c cause low rest := by
  cases hdrops with
  | going hat =>
      right
      have hrun : s.step = s.runDiscarding es cause low := by
        simp only [step, hat.control, run, hat.stack]
      rw [hrun] at hstep
      cases es with
      | nil => exact absurd hat hmore
      | cons e rest =>
          refine ⟨e, rest, rfl, hat, ?_⟩
          rw [List.all_cons, Bool.and_eq_true] at hplain
          cases e with
          | guard label onDrop =>
              have honDrop := List.isEmpty_iff.mp hplain.1
              subst honDrop
              cases hstep
              exact .going ⟨hat.running, rfl, rfl⟩
          | slot name handle =>
              cases handle with
              | empty =>
                  cases hstep
                  exact .going ⟨hat.running, rfl, rfl⟩
              | live fiber =>
                  refine .waiting ?_
                  rw [h.stackOf_transfer hstep, if_pos hat.running.symm]
  | waiting hstack =>
      left
      refine ⟨?_, fun hat => by
        rw [<- hat.running, stackOf_running, hat.stack] at hstack
        cases hstack⟩
      by_cases hrunning : c = s.running
      · subst hrunning
        have hdropping := Option.some.inj (stackOf_running.symm.trans hstack)
        rcases h.arrives_dropping hdropping with ⟨source, hcontrol | hcontrol⟩
        · have hback : s.step = s.go s.world (.discarding es cause :: low) := by
            simp only [step, hcontrol, land, receive, hdropping]
          cases hback.symm.trans hstep
          exact .going ⟨rfl, rfl, rfl⟩
        · have hreleased : s.step = s.release source := by simp only [step, hcontrol, land]
          refine .waiting ?_
          rw [h.stackOf_of_release hcontrol (hreleased.symm.trans hstep), hdropping]
      · rcases h.stays hstep hstack (by simp) with ⟨stack', hstack'⟩
        rcases h.touches hstep hrunning hstack' with ⟨hnew, -⟩ | ⟨stack, hold, htouches⟩
        · cases hnew.symm.trans hstack
        · cases hold.symm.trans hstack
          cases htouches
          exact .waiting hstack'

/-! ## All steps -/

/--
A drop lasts for so many steps.  They lead to the end of the run, or to that of the drop, each entry
having had its turn.
-/
structure DropLasts (s : State) (c : ContextId) (cause : Option Unwind) (low : List Frame)
    (es : List Entry) (m : Nat) : Prop where
  during : forall i, i < m -> exists u rest, Config.after i (.active s) = .active u ∧ u.Sane ∧
    u.Drops c cause low rest
  ends : (exists outcome w, Config.after m (.active s) = .halted outcome w) ∨
    forall done rest, es = done ++ rest -> exists i u, i ≤ m ∧ (rest = [] -> i = m) ∧
      Config.after i (.active s) = .active u ∧ u.Sane ∧ u.AtDrop c cause low rest

theorem dropLasts_zero (h : s.Sane) (hat : s.AtDrop c cause low []) :
    s.DropLasts c cause low [] 0 where
  during i hi := absurd hi (Nat.not_lt_zero i)
  ends := by
    right
    intro done rest hnone
    rcases List.append_eq_nil_iff.mp hnone.symm with ⟨-, rfl⟩
    exact ⟨0, s, Nat.le_refl 0, fun _ => rfl, rfl, h, hat⟩

/-- A step before the others, with which one more entry may have had its turn. -/
theorem DropLasts.succ {left : List Entry} {m : Nat} (h : s.Sane) (hdrops : s.Drops c cause low es)
    (hstep : s.step = .active s')
    (hleft : left = es ∨ exists e, es = e :: left ∧ s.AtDrop c cause low es)
    (hlasts : s'.DropLasts c cause low left m) : s.DropLasts c cause low es (m + 1) := by
  have hnext : forall i, Config.after (i + 1) (.active s) = Config.after i (.active s') :=
    fun i => congrArg (Config.after i) hstep
  have hlater : forall done rest, left = done ++ rest ->
      (forall done rest, left = done ++ rest -> exists i u, i ≤ m ∧ (rest = [] -> i = m) ∧
        Config.after i (.active s') = .active u ∧ u.Sane ∧ u.AtDrop c cause low rest) ->
      exists i u, i ≤ m + 1 ∧ (rest = [] -> i = m + 1) ∧
        Config.after i (.active s) = .active u ∧ u.Sane ∧ u.AtDrop c cause low rest := by
    intro done rest hdone hall
    rcases hall done rest hdone with ⟨i, u, hi, hlast, hu, hat⟩
    exact ⟨i + 1, u, Nat.succ_le_succ hi, fun hnone => congrArg Nat.succ (hlast hnone),
      (hnext i).trans hu, hat⟩
  constructor
  · intro i hi
    cases i with
    | zero => exact ⟨s, es, rfl, h, hdrops⟩
    | succ i =>
        rcases hlasts.during i (Nat.lt_of_succ_lt_succ hi) with ⟨u, rest, hu, hduring⟩
        exact ⟨u, rest, (hnext i).trans hu, hduring⟩
  · refine hlasts.ends.imp (fun hhalted => ?_) (fun hall done rest hdone => ?_)
    · rcases hhalted with ⟨outcome, w, hhalted⟩
      exact ⟨outcome, w, (hnext m).trans hhalted⟩
    · rcases hleft with rfl | ⟨e, rfl, hat⟩
      · exact hlater done rest hdone hall
      · cases done with
        | nil =>
            refine ⟨0, s, Nat.zero_le _, ?_, rfl, h, ?_⟩
            · rintro rfl
              cases hdone
            · cases hdone
              exact hat
        | cons e' done =>
            cases hdone
            exact hlater done rest rfl hall

/-- In a run that ends, a drop comes to one of its ends. -/
theorem Sane.dropLasts {n : Nat} {outcome : Outcome} {w : World} (h : s.Sane)
    (hplain : es.all Entry.isPlain = true) (hdrops : s.Drops c cause low es)
    (hend : Config.after n (.active s) = .halted outcome w) :
    exists m, s.DropLasts c cause low es m := by
  induction n generalizing s es with
  | zero => cases hend
  | succ n ih =>
      by_cases hatop : s.AtDrop c cause low []
      · exact ⟨0, hdrops.eq_nil hatop ▸ dropLasts_zero h hatop⟩
      · cases hstep : s.step with
        | halted outcome' w' =>
            refine ⟨1, fun i hi => ?_, Or.inl ⟨outcome', w', hstep⟩⟩
            rcases Nat.lt_one_iff.mp hi with rfl
            exact ⟨s, es, rfl, h, hdrops⟩
        | active s' =>
            have hrest : Config.after n (.active s') = .halted outcome w :=
              (congrArg (Config.after n) hstep).symm.trans hend
            have hbefore := h
            rcases h with ⟨lost, hsound⟩
            have hafter : s'.Sane := ⟨_, (hsound.move hstep).2⟩
            rcases hsound.drops_step hplain hdrops hatop hstep with
              ⟨hsame, -⟩ | ⟨e, left, rfl, hat, hless⟩
            · rcases ih hafter hplain hsame hrest with ⟨m, hlasts⟩
              exact ⟨m + 1, hlasts.succ hbefore hdrops hstep (Or.inl rfl)⟩
            · rw [List.all_cons, Bool.and_eq_true] at hplain
              rcases ih hafter hplain.2 hless hrest with ⟨m, hlasts⟩
              exact ⟨m + 1, hlasts.succ hbefore hdrops hstep (Or.inr ⟨e, rfl, hat⟩)⟩

/-! ## The same drop elsewhere -/

/-- What lies below a drop keeps out of a step, and the context is listed. -/
theorem Drops.atop {k : State} {base : List LogEntry}
    (h : (k.atop c base low).Drops c none low es) (hsound : (k.atop c base low).Sound lost) :
    c ∈ contextKeys k.contexts ∧ (k.running = c -> Shields k.stack) := by
  obtain ⟨stack, hstack⟩ : exists stack, (k.atop c base low).stackOf c = some stack :=
    h.stackOf.elim (fun heq => ⟨_, heq⟩) (fun heq => ⟨_, heq⟩)
  refine ⟨?_, fun hrunning => ?_⟩
  · have hlisted := hsound.mem_contextKeys_of_stackOf hstack
    exact contextKeys_underlayAll ▸ hlisted
  · have hatop : (k.atop c base low).stackOf c = some (k.stack ++ low) := by
      have hlaid : (k.atop c base low).stack = k.stack ++ low := by
        simp only [State.atop, hrunning, lay_self]
      rw [<- hlaid, <- hrunning]
      exact stackOf_running
    rcases h.stackOf with heq | heq
    · have htop : k.stack = [.discarding es none] :=
        List.append_cancel_right (Option.some.inj (hatop.symm.trans heq))
      rw [htop]
      cases es <;> trivial
    · have htop : k.stack = [.dropping, .discarding es none] :=
        List.append_cancel_right (Option.some.inj (hatop.symm.trans heq))
      rw [htop]
      trivial

/-- During a drop nothing looks at the frames below, whichever they are. -/
theorem DropLasts.atop {k : State} {base : List LogEntry} {m : Nat}
    (h : (k.atop c base low).DropLasts c none low es m) {i : Nat} (hi : i ≤ m)
    (base' : List LogEntry) (low' : List Frame) :
    Config.after i (.active (k.atop c base' low')) =
      (Config.after i (.active k)).atop c base' low' := by
  induction i generalizing base' low' with
  | zero => rfl
  | succ i ih =>
      have hearlier := fun base' low' => ih (Nat.le_of_succ_le hi) base' low'
      rcases h.during i hi with ⟨u, rest, hu, ⟨lost, hsound⟩, hdrops⟩
      rw [hearlier] at hu
      cases hk : Config.after i (.active k) with
      | halted outcome w =>
          rw [hk] at hu
          cases hu
      | active k' =>
          rw [hk] at hu
          cases hu
          rcases hdrops.atop hsound with ⟨hlisted, hshields⟩
          rw [Config.after_succ, Config.after_succ, hearlier, hk]
          exact hsound.step_atop base hlisted hshields base' low'

/-! ## Dropping first -/

/-- The state with another stack of the running context, on top of another log. -/
def above (k : State) (base : List LogEntry) (stack : List Frame) : State :=
  { k with world := k.world.onto base, stack := stack }

theorem AtDrop.atop {k : State} {base : List LogEntry} (hsane : (k.atop c base low).Sane)
    (h : (k.atop c base low).AtDrop c none low es) :
    k.running = c ∧ k.control = .run ∧ k.stack = [.discarding es none] ∧
      forall stack base' low',
        State.atop { k with stack := stack } c base' low' = k.above base' (stack ++ low') := by
  rcases hsane with ⟨lost, hsound⟩
  have hrunning : k.running = c := h.running
  have hkeys : (contextKeys k.contexts).Nodup := contextKeys_underlayAll ▸ hsound.keys
  have hlisted : k.parked? k.running = some [] := by
    have hatop : (k.atop c base low).parked? k.running = some [] := hsound.listed
    rw [parked?_atop, Option.map_eq_some_iff] at hatop
    rcases hatop with ⟨stack, hstack, hnil⟩
    cases stack with
    | nil => exact hstack
    | cons top below => cases hnil
  subst hrunning
  refine ⟨rfl, h.control, ?_, fun stack base' low' => ?_⟩
  · have hatop := h.stack
    rw [atop_running hkeys hlisted] at hatop
    have hlaid : k.stack ++ low = [.discarding es none] ++ low := hatop
    exact List.append_cancel_right hlaid
  · exact atop_running (s := { k with stack := stack }) hkeys hlisted base' low'

/-- An entry has its turn at the same time wherever the drop takes place. -/
theorem DropLasts.turn {k u : State} {base : List LogEntry} {m i : Nat} {rest : List Entry}
    (h : (k.atop c base low).DropLasts c none low es m) (hi : i ≤ m)
    (hu : Config.after i (.active (k.atop c base low)) = .active u) (hsane : u.Sane)
    (hat : u.AtDrop c none low rest) :
    exists k' : State, k'.running = c ∧ k'.control = .run ∧
      Config.after i (.active k) = .active { k' with stack := [.discarding rest none] } ∧
      forall stack base' low',
        State.atop { k' with stack := stack } c base' low' = k'.above base' (stack ++ low') := by
  rw [h.atop hi] at hu
  cases hafter : Config.after i (.active k) with
  | halted outcome w =>
      rw [hafter] at hu
      cases hu
  | active k' =>
      rw [hafter] at hu
      cases hu
      rcases hat.atop hsane with ⟨hrunning, hcontrol, hstack, habove⟩
      exact ⟨k', hrunning, hcontrol, by rw [<- hstack], habove⟩

theorem step_above {k : State} (hrun : k.control = .run) (base : List LogEntry) (low : List Frame) :
    (k.above base (.discarding [] none :: low)).step = .active (k.above base low) := by
  simp only [above, step, hrun, run, runDiscarding, go]

/--
What it comes to that some entries are dropped first.  Up to the end of that, or of the run, all goes
on in the same way whatever was logged before and waits below; and each entry has its turn.
-/
inductive DropsFirst (k : State) (entries : List Entry) (m : Nat) : Prop where
  | halts (outcome : Outcome) (w : World) :
      (forall base low, Config.after m (.active (k.above base (dropFirst entries low))) =
        .halted outcome (w.onto base)) -> DropsFirst k entries m
  | ends (k' : State) : k'.running = k.running -> k'.control = .run ->
      (forall base low, Config.after m (.active (k.above base (dropFirst entries low))) =
        .active (k'.above base low)) ->
      (forall done e left, entries = done ++ e :: left -> exists (i : Nat) (u : State), i < m ∧
        u.running = k.running ∧ u.control = .run ∧
        forall base low, Config.after i (.active (k.above base (dropFirst entries low))) =
          .active (u.above base (.discarding (e :: left) none :: low))) ->
      DropsFirst k entries m

/-- In a run that ends, entries that run no code are dropped first as they are anywhere. -/
theorem Sane.dropsFirst {k : State} {base : List LogEntry} {entries : List Entry} {n : Nat}
    {outcome : Outcome} {w : World} (h : (k.above base (dropFirst entries low)).Sane)
    (hrun : k.control = .run) (hplain : entries.all Entry.isPlain = true)
    (hend : Config.after n (.active (k.above base (dropFirst entries low))) = .halted outcome w) :
    exists m, k.DropsFirst entries m ∧
      (forall i, i < m -> exists u rest, u.Drops k.running none low rest ∧
        Config.after i (.active (k.above base (dropFirst entries low))) = .active u) ∧
      forall i, i ≤ m -> exists x : Config, forall base low,
        Config.after i (.active (k.above base (dropFirst entries low))) =
          x.atop k.running base low := by
  obtain ⟨hkeys, hlisted⟩ : (contextKeys k.contexts).Nodup ∧ k.parked? k.running = some [] := by
    rcases h with ⟨lost, hsound⟩
    exact ⟨hsound.keys, hsound.listed⟩
  cases entries with
  | nil =>
      refine ⟨0, .ends k rfl hrun (fun base low => rfl) ?_, nofun, fun i hi => ?_⟩
      · intro done e left hnone
        cases done <;> cases hnone
      · rcases Nat.le_zero.mp hi with rfl
        refine ⟨.active { k with stack := [] }, fun base low => ?_⟩
        exact congrArg Config.active (atop_running (s := { k with stack := [] }) hkeys hlisted
          base low).symm
  | cons e es =>
      -- The drop is looked at without the frames below it, which are then put back.
      let alone : State := { k with stack := [.discarding (e :: es) none] }
      have halone : forall base low, k.above base (dropFirst (e :: es) low) =
          alone.atop k.running base low :=
        fun base low => (atop_running (s := alone) hkeys hlisted base low).symm
      rw [halone] at h hend
      have hat : (alone.atop k.running base low).AtDrop k.running none low (e :: es) :=
        ⟨rfl, hrun, by rw [<- halone]; rfl⟩
      rcases h.dropLasts hplain (.going hat) hend with ⟨m, hlasts⟩
      simp only [halone]
      have hatop := fun {i : Nat} (hi : i ≤ m) => hlasts.atop hi
      have hduring : forall i, i < m -> exists u rest, u.Drops k.running none low rest ∧
          Config.after i (.active (alone.atop k.running base low)) = .active u := by
        intro i hi
        rcases hlasts.during i hi with ⟨u, rest, hu, -, hdrops⟩
        exact ⟨u, rest, hdrops, hu⟩
      rcases hlasts.ends with ⟨outcome', w', hhalted⟩ | hturns
      · rw [hatop (Nat.le_refl m)] at hhalted
        cases hafter : Config.after m (.active alone) with
        | active u =>
            rw [hafter] at hhalted
            cases hhalted
        | halted outcome' w' =>
            refine ⟨m, .halts outcome' w' fun base low => ?_, hduring, fun i hi => ⟨_, hatop hi⟩⟩
            rw [halone, hatop (Nat.le_refl m), hafter]
            rfl
      · rcases hturns (e :: es) [] (List.append_nil _).symm with ⟨i, u, hi, hlast, hu, hsane, hat⟩
        rcases hlasts.turn hi hu hsane hat with ⟨k', hrunning, hcontrol, hafter, habove⟩
        cases hlast rfl
        have hends : forall base low, Config.after (m + 1) (.active (alone.atop k.running base low)) =
            .active (k'.above base low) := by
          intro base low
          rw [Config.after_succ, hatop (Nat.le_refl m), hafter]
          exact (congrArg State.step (habove _ base low)).trans (step_above hcontrol base low)
        refine ⟨m + 1, .ends k' hrunning hcontrol (fun base low => by rw [halone, hends]) ?_, ?_, ?_⟩
        · intro done e' left hes
          rcases hturns done (e' :: left) hes with ⟨i, u, hi, -, hu, hsane, hat⟩
          rcases hlasts.turn hi hu hsane hat with ⟨u', hrunning, hcontrol, hafter, habove⟩
          refine ⟨i, u', Nat.lt_succ_of_le hi, hrunning, hcontrol, fun base low => ?_⟩
          rw [halone, hatop hi, hafter]
          exact congrArg Config.active (habove _ base low)
        · intro i hi
          rcases Nat.lt_or_eq_of_le (Nat.le_of_lt_succ hi) with hbefore | rfl
          · exact hduring i hbefore
          · exact ⟨u, [], .going hat, hu⟩
        · intro i hi
          rcases Nat.lt_or_eq_of_le hi with hbefore | rfl
          · exact ⟨_, hatop (Nat.le_of_lt_succ hbefore)⟩
          · refine ⟨.active { k' with stack := [] }, fun base low => ?_⟩
            rw [hends]
            exact (congrArg Config.active (habove [] base low)).symm

end State

end Fibers
