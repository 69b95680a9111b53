import Fibers.Proofs.Turn.Basic
import Mathlib.Logic.Relation

/-!
# Runs in which contexts go

While something is being dropped, fibers are evicted one inside the other, and in the end control is
back where it was.  Here it is told what such a run leaves as it was, and when each fiber had its turn.
-/

namespace Fibers

open Relation (ReflTransGen)

/-! ## The world -/

/-- The log without its trace, the latest entry first. -/
def World.untraced (w : World) : List LogEntry := w.log.filter (fun e => ¬ e.isTrace)

/-- Nothing that code can see has changed but the log, to which the given entries were added. -/
structure World.Gains (w : World) (log : List LogEntry) (w' : World) : Prop where
  hosts : w'.hosts = w.hosts
  globals : w'.globals = w.globals
  cells : w'.cells = w.cells
  memory : w'.memory = w.memory
  untraced : w'.untraced = log.reverse ++ w.untraced

namespace World

variable {w w' w'' : World} {log log' : List LogEntry}

theorem Gains.trans (h : w.Gains log w') (h' : w'.Gains log' w'') : w.Gains (log ++ log') w'' where
  hosts := h'.hosts.trans h.hosts
  globals := h'.globals.trans h.globals
  cells := h'.cells.trans h.cells
  memory := h'.memory.trans h.memory
  untraced := by rw [h'.untraced, h.untraced, List.reverse_append, List.append_assoc]

theorem gains_nil : w.Gains [] w := ⟨rfl, rfl, rfl, rfl, rfl⟩

theorem gains_trace (e : TraceEvent) : w.Gains [] (w.trace e) := ⟨rfl, rfl, rfl, rfl, rfl⟩

theorem gains_guards (n : Int) : w.Gains [] { w with liveGuards := n } := ⟨rfl, rfl, rfl, rfl, rfl⟩

theorem gains_report {e : LogEntry} (h : e.isTrace = false) : w.Gains [e] (w.report e) := by
  refine ⟨rfl, rfl, rfl, rfl, ?_⟩
  simp [untraced, report, h]

end World

namespace State

variable {s s' s'' : State} {gone gone' : ContextId -> Prop} {log log' : List LogEntry}

/-! ## Runs without operations -/

/-- A step in which no operation is done. -/
def Idles (s s' : State) : Prop := s.step = .active s' ∧ s.operation? = none

/--
A run of such steps that comes back to the context it has started from.  Some contexts are gone, all
others are as they were.
-/
structure Clears (s : State) (gone : ContextId -> Prop) (log : List LogEntry) (s' : State) :
    Prop where
  idles : ReflTransGen Idles s s'
  running : s'.running = s.running
  world : s.world.Gains log s'.world
  cleared : forall c, gone c -> s'.parked? c = none
  kept : forall c, ¬ gone c -> s'.parked? c = s.parked? c

theorem Clears.congr (h : s.Clears gone log s') (hlog : log = log')
    (hgone : forall c, gone c ↔ gone' c) : s.Clears gone' log' s' where
  idles := h.idles
  running := h.running
  world := hlog ▸ h.world
  cleared := fun c hc => h.cleared c ((hgone c).mpr hc)
  kept := fun c hc => h.kept c (fun hbefore => hc ((hgone c).mp hbefore))

/-! ### Evictions -/

/--
In the run between two states a context is told to unwind, on the stack that it was parked with, and
comes to its end for the context that wants it gone.
-/
structure Evicts (s : State) (c : ContextId) (stack : List Frame) (s' t : State) : Prop where
  before : ReflTransGen Idles s t
  running : t.running = c
  stack : t.stack = stack
  unwinds : exists requester lease u, t.control = .landed requester (.message .eviction) ∧
    ReflTransGen Idles t u ∧ u.running = c ∧ u.control = .run ∧
      u.stack = [.base (.leaving lease (.unwound requester))] ∧ ReflTransGen Idles u s'

theorem Evicts.earlier {c : ContextId} {stack : List Frame} {r t : State}
    (h : s.Evicts c stack s' t) (hearlier : ReflTransGen Idles r s) : r.Evicts c stack s' t :=
  ⟨hearlier.trans h.before, h.running, h.stack, h.unwinds⟩

theorem Evicts.later {c : ContextId} {stack : List Frame} {t : State} (h : s.Evicts c stack s' t)
    (hlater : ReflTransGen Idles s' s'') : s.Evicts c stack s'' t := by
  rcases h.unwinds with ⟨requester, lease, u, hcontrol, hunwound, hrunning, hrun, hleaving, hafter⟩
  exact ⟨h.before, h.running, h.stack,
    ⟨requester, lease, u, hcontrol, hunwound, hrunning, hrun, hleaving, hafter.trans hlater⟩⟩

/-- The frames of a context that waits in a drop, which is a part of the given unwind if of any. -/
def WaitsIn (cause : Option Unwind) (stack : List Frame) : Prop :=
  exists rest below, stack = .dropping :: .discarding rest cause :: below

/--
A run without operations that comes back to the context it has started from.  Some contexts are gone,
each of which was evicted while that context waited in a certain way, and all others were as they are.
-/
structure Sweeps (s : State) (waits : List Frame -> Prop) (gone : ContextId -> Prop) (s' : State) :
    Prop where
  idles : ReflTransGen Idles s s'
  running : s'.running = s.running
  cleared : forall c, gone c -> s'.parked? c = none
  kept : forall c, ¬ gone c -> s'.parked? c = s.parked? c
  evicted : forall c stack, gone c -> s.parked? c = some stack -> exists t, s.Evicts c stack s' t ∧
    (exists waiting, t.parked? s.running = some waiting ∧ waits waiting) ∧
      forall d, d ≠ s.running -> ¬ gone d -> t.parked? d = s.parked? d

namespace Sweeps

variable {waits waits' : List Frame -> Prop}

theorem refl : s.Sweeps waits (fun _ => False) s where
  idles := .refl
  running := rfl
  cleared := fun _ h => False.elim h
  kept := fun _ _ => rfl
  evicted := fun _ _ h => False.elim h

theorem trans (h : s.Sweeps waits gone s') (h' : s'.Sweeps waits gone' s'') :
    s.Sweeps waits (fun c => gone c ∨ gone' c) s'' where
  idles := h.idles.trans h'.idles
  running := h'.running.trans h.running
  cleared := by
    intro c hc
    by_cases hlater : gone' c
    · exact h'.cleared c hlater
    · rw [h'.kept c hlater]
      exact h.cleared c (hc.resolve_right hlater)
  kept := by
    intro c hc
    rcases not_or.mp hc with ⟨hnot, hnot'⟩
    rw [h'.kept c hnot', h.kept c hnot]
  evicted := by
    intro c stack hc hstack
    by_cases hfirst : gone c
    · rcases h.evicted c stack hfirst hstack with ⟨t, hevicts, hwaits, hothers⟩
      exact ⟨t, hevicts.later h'.idles, hwaits,
        fun d hd hnot => hothers d hd fun hgone => hnot (Or.inl hgone)⟩
    · have hparked := (h.kept c hfirst).trans hstack
      rcases h'.evicted c stack (hc.resolve_left hfirst) hparked with ⟨t, hevicts, hwaits, hothers⟩
      rw [h.running] at hwaits hothers
      refine ⟨t, hevicts.earlier h.idles, hwaits, fun d hd hnot => ?_⟩
      rcases not_or.mp hnot with ⟨hnot, hnot'⟩
      rw [hothers d hd hnot', h.kept d hnot]

theorem congr (h : s.Sweeps waits gone s') (hgone : forall c, gone c ↔ gone' c) :
    s.Sweeps waits gone' s' := by
  have hsame : gone = gone' := funext fun c => propext (hgone c)
  exact hsame ▸ h

theorem mono (h : s.Sweeps waits gone s') (hwaits : forall stack, waits stack -> waits' stack) :
    s.Sweeps waits' gone s' where
  idles := h.idles
  running := h.running
  cleared := h.cleared
  kept := h.kept
  evicted := by
    intro c stack hc hstack
    rcases h.evicted c stack hc hstack with ⟨t, hevicts, ⟨waiting, hparked, hwaiting⟩, hothers⟩
    exact ⟨t, hevicts, ⟨waiting, hparked, hwaits waiting hwaiting⟩, hothers⟩

theorem parked? {c : ContextId} {stack : List Frame} (h : s.Sweeps waits gone s')
    (hstack : s'.parked? c = some stack) : s.parked? c = some stack := by
  by_cases hc : gone c
  · rw [h.cleared c hc] at hstack
    cases hstack
  · rwa [h.kept c hc] at hstack

theorem single (hstep : s.step = .active s') (hidle : s.operation? = none)
    (hrunning : s'.running = s.running) (hcontexts : s'.contexts = s.contexts) :
    s.Sweeps waits (fun _ => False) s' where
  idles := .single ⟨hstep, hidle⟩
  running := hrunning
  cleared := fun _ h => False.elim h
  kept := fun c _ => by rw [State.parked?, hcontexts]; rfl
  evicted := fun _ _ h => False.elim h

end Sweeps

/-- Such a run, with what it adds to the log.  Nothing else of what is shared has changed. -/
structure Removes (s : State) (waits : List Frame -> Prop) (gone : ContextId -> Prop)
    (log : List LogEntry) (s' : State) : Prop extends s.Sweeps waits gone s' where
  world : s.world.Gains log s'.world

namespace Removes

variable {waits waits' : List Frame -> Prop}

theorem clears (h : s.Removes waits gone log s') : s.Clears gone log s' :=
  ⟨h.idles, h.running, h.world, h.cleared, h.kept⟩

theorem refl : s.Removes waits (fun _ => False) [] s := ⟨.refl, World.gains_nil⟩

theorem trans (h : s.Removes waits gone log s') (h' : s'.Removes waits gone' log' s'') :
    s.Removes waits (fun c => gone c ∨ gone' c) (log ++ log') s'' :=
  ⟨h.toSweeps.trans h'.toSweeps, h.world.trans h'.world⟩

theorem congr (h : s.Removes waits gone log s') (hlog : log = log')
    (hgone : forall c, gone c ↔ gone' c) : s.Removes waits gone' log' s' :=
  ⟨h.toSweeps.congr hgone, hlog ▸ h.world⟩

theorem mono (h : s.Removes waits gone log s') (hwaits : forall stack, waits stack -> waits' stack) :
    s.Removes waits' gone log s' :=
  ⟨h.toSweeps.mono hwaits, h.world⟩

theorem single (hstep : s.step = .active s') (hidle : s.operation? = none)
    (hrunning : s'.running = s.running) (hcontexts : s'.contexts = s.contexts)
    (hworld : s.world.Gains log s'.world) : s.Removes waits (fun _ => False) log s' :=
  ⟨.single hstep hidle hrunning hcontexts, hworld⟩

end Removes

end State

end Fibers
