import Fibers.Proofs.Panic.Raise
import Fibers.Proofs.Termination

/-!
# Runs that a panic ends

What a panic of the main program has set going is followed to the end of the run.  Nothing that is
dropped on the way runs code, and a forced unwind stays on the stack that it was raised on.  All fibers
go with the frames of the main program or with the shared slots, for ownership is a forest.
-/

namespace Fibers

open Relation (ReflTransGen)

/-! ## The last states of a run -/

namespace Program.Reaches

variable {p : Program} {past : List State} {s s' : State}

theorem idles (h : p.Reaches past s) (hidles : ReflTransGen State.Idles s s') :
    exists past', p.Reaches past' s' := by
  induction hidles with
  | refl => exact ⟨past, h⟩
  | tail _ hstep ih =>
      rcases ih with ⟨past', hreach⟩
      exact ⟨_, hreach.step hstep.1⟩

/-- With empty shared slots nothing is left to be counted. -/
theorem counts_of_drainedDry (h : p.Reaches past s)
    (hmain : Discipline.lossless.allowsAll p.main = true) (hdry : s.DrainedDry) :
    s.world.liveGuards = 0 ∧ s.world.liveStacks = 0 := by
  rcases h.sound.holdings_of_drainedDry (h.allReached hmain) h.tidy hdry with ⟨hnothing, hstacks⟩
  have haudit := h.audited
  have hperm : (droppedIn past).Perm (madeIn past) := by
    rw [List.perm_iff_count]
    intro label
    rw [haudit.held, hnothing]
    rfl
  have hlength := hperm.length_eq
  refine ⟨?_, ?_⟩
  · rw [haudit.guards]
    omega
  · rw [haudit.lent, hstacks]
    rfl

end Program.Reaches

/-! ## From the panic to the end -/

namespace State

variable {s s' r e : State} {lost : List ContextId} {payload : Payload} {captured : List Entry}
  {a : Activation}

/--
A run goes on from a panic of the main program to an end as that panic.  No operation is done, and
nothing is left.  Each fiber is evicted, on the stack that it was parked with when the panic was
raised; and those that go with the frames of the main program go while it still waits in the unwind of
that panic.
-/
structure Collapses (r : State) (payload : Payload) (e : State) : Prop where
  idles : ReflTransGen Idles r e
  ends : e.step = .halted (.panicked payload) e.world
  guards : e.world.liveGuards = 0
  lent : e.world.liveStacks = 0
  alone : forall c, c ≠ mainContext -> e.parked? c = none
  evicted : forall c stack, c ≠ mainContext -> r.parked? c = some stack ->
    exists t, r.Evicts c stack e t
  underWay : forall c stack, HeldFrom r.contexts (stackHoldings r.stack) c ->
    r.parked? c = some stack -> exists t, r.Evicts c stack e t ∧
      exists waiting, t.parked? mainContext = some waiting ∧ WaitsIn (some (.panic payload)) waiting

/-- The main program runs where a panic has just been raised in its own code. -/
theorem Sound.running_of_raised (h : s.Sound lost) (hrun : s.control = .run)
    (hstack : s.stack = [.discarding captured (some (.panic payload)), .code a, .root .program]) :
    s.running = mainContext := by
  have hstands := h.stands
  simp only [Stands, hrun, hstack, Stacked, homeOf] at hstands
  by_cases hmain : s.running = mainContext
  · exact hmain
  · simp [hmain] at hstands

/-- All that the main program has at hand as it panics are handles. -/
theorem handlesOnly_of_raised (hrun : s.control = .run)
    (hstack : s.stack = [.discarding captured (some (.panic payload)), .code a, .root .program]) :
    HandlesOnly s.pool := by
  rw [pool, hrun, hstack]
  refine (HandlesOnly.world _).append ?_ |>.append .nil
  exact (HandlesOnly.entries _ |>.append .nil).append ((HandlesOnly.code _).append .nil)

/-- The frames of the main program close first, and then the shared slots are drained. -/
theorem Sane.collapses (hsane : s.Sane) (honce : s.world.NamesOnce) (hrun : s.control = .run)
    (hstack : s.stack = [.discarding captured (some (.panic payload)), .code a, .root .program])
    (hobeys : s.ObeysNow .tame) (hresult : a.flow.result = .empty)
    (huncaught : forall b, b ∈ a.blocks -> forall swallow, b.kind ≠ .attempt swallow)
    (hmild : MildBelow s.contexts s.pool) :
    exists e gone rounds, e.control = .run ∧
      e.stack = [.root (.draining rounds [] false (some payload))] ∧
      s.Sweeps (fun _ => True) gone e ∧ (forall c, HeldFrom s.contexts s.pool c -> gone c) ∧
        forall c stack, HeldFrom s.contexts (stackHoldings s.stack) c -> s.parked? c = some stack ->
          exists t, s.Evicts c stack e t ∧ exists waiting, t.parked? s.running = some waiting ∧
            WaitsIn (some (.panic payload)) waiting := by
  have hallows := hobeys.1
  rw [hstack] at hallows
  simp only [Discipline.allowsStack, List.all_cons, Discipline.allowsFrame, Bool.and_eq_true]
    at hallows
  rcases hallows with ⟨hcaptured, hcode, -⟩
  have has : s.AsIn s.contexts := fun c stack hparked _ => hparked
  rw [pool, hrun, Control.holdings, List.append_nil, mildBelow_append] at hmild
  rcases hmild with ⟨hshared, hframes⟩
  rcases hsane.unwindsMain has hrun hstack (Discipline.isPlain_of_tame hcaptured) hresult
    (Discipline.isMild_of_tame hcode) huncaught hframes with
    ⟨s', log, hrun', hstack', hremoves⟩
  have hglobals : s'.world.globals = s.world.globals := hremoves.world.globals
  have hheld : s'.world.holdings = s.world.holdings := by
    rw [World.holdings, hglobals, <- World.holdings]
  -- Two rounds are enough, and there are a hundred left.
  have hrounds : s'.stack = [.root (.draining (98 + 2) [] true (some payload))] := hstack'
  rcases (hsane.idles hremoves.idles).drainsAll (has.sweeps hremoves.toSweeps) (hheld ▸ hshared)
    (honce.of_globals hglobals) hrun' hrounds with
    ⟨e, gone, rounds, hrunₑ, hstackₑ, hsweeps, hgone⟩
  refine ⟨e, _, rounds, hrunₑ, hstackₑ, (hremoves.mono fun _ _ => trivial).toSweeps.trans hsweeps,
    ?_, ?_⟩
  · intro c hc
    rw [pool, hrun, Control.holdings, List.append_nil, heldFrom_append] at hc
    rcases hc with hshared | hframes
    · exact Or.inr (hgone c (hheld ▸ hshared))
    · exact Or.inl hframes
  · intro c stack hc hparked
    rcases hremoves.evicted c stack hc hparked with ⟨t, hevicts, hwaits, -⟩
    exact ⟨t, hevicts.later hsweeps.idles, hwaits⟩

end State

/--
Once a panic has been raised in the main program, and none of the blocks there catches it, the run
comes to its end as that panic with nothing left.
-/
theorem Program.Reaches.collapses {p : Program} {past : List State} {r : State} {payload : Payload}
    {captured : List Entry} {a : Activation} (h : p.Reaches past r)
    (hmain : Discipline.tame.allowsAll p.main = true) (hrun : r.control = .run)
    (hstack : r.stack = [.discarding captured (some (.panic payload)), .code a, .root .program])
    (hresult : a.flow.result = .empty)
    (huncaught : forall b, b ∈ a.blocks -> forall swallow, b.kind ≠ .attempt swallow) :
    exists e, r.Collapses payload e ∧ p.run = .ofWorld (.panicked payload) e.world := by
  have hlossless := Discipline.allLossless_of_tame p.main hmain
  have hsound := h.sound
  have hsettled := h.settled hmain
  have hobeys := h.obeys hmain
  have hrunning := hsound.running_of_raised hrun hstack
  have hmild : State.MildBelow r.contexts r.pool := fun c hc =>
    hsettled.mildFrom hsound hobeys hrunning (List.mem_append_left _ hc)
  rcases State.Sane.collapses ⟨_, hsound⟩ h.tidy.1 hrun hstack hobeys.1 hresult huncaught hmild with
    ⟨e, gone, rounds, hrunₑ, hstackₑ, hsweeps, hgone, hunderWay⟩
  rw [hrunning] at hunderWay
  rcases h.idles hsweeps.idles with ⟨past', hreach⟩
  have hends : e.step = .halted (.panicked payload) e.world := by
    simp only [State.step, hrunₑ, State.run, hstackₑ, State.runRoot]
    cases rounds <;> rfl
  -- Every fiber is in reach of what the main program has, and so it goes.
  have hall : forall c stack, c ≠ mainContext -> r.parked? c = some stack -> gone c := by
    intro c stack hc hparked
    have hreached := h.allReached hlossless c (mem_contextKeys.mpr ⟨stack, hparked⟩) (hrunning ▸ hc)
    exact hgone c (hreached.heldFrom hsettled hsound (State.handlesOnly_of_raised hrun hstack))
  rcases hreach.counts_of_drainedDry hlossless ⟨hrunₑ, rounds, _, [], hstackₑ⟩ with
    ⟨hguards, hstacks⟩
  refine ⟨e, ⟨hsweeps.idles, hends, hguards, hstacks, ?_, ?_, hunderWay⟩, hreach.run_eq hends⟩
  · intro c hc
    cases hparked : e.parked? c with
    | none => rfl
    | some stack =>
        have hbefore := hsweeps.parked? hparked
        rw [hsweeps.cleared c (hall c stack hc hbefore)] at hparked
        cases hparked
  · intro c stack hc hparked
    rcases hsweeps.evicted c stack (hall c stack hc hparked) hparked with ⟨t, hevicts, -⟩
    exact ⟨t, hevicts⟩

/--
A panic in the main program's own code that no block there catches is what the run ends with, in
programs that discard no forced unwind and run no code where guards are dropped.  All fibers are
unwound in their own places meanwhile, and all guards and stacks are gone in the end.
-/
theorem panic_unwinds {p : Program} {past : List State} {s : State} {a : Activation}
    {payload : Payload} (hmain : Discipline.tame.allowsAll p.main = true) (h : p.Reaches past s)
    (hstack : s.stack = [.code a, .root .program]) (hpanics : s.Panics payload)
    (huncaught : forall b, b ∈ a.blocks -> forall swallow, b.kind ≠ .attempt swallow) :
    exists captured a' r e, s.Raises payload a [.root .program] captured a' r ∧
      r.Collapses payload e ∧ p.run = .ofWorld (.panicked payload) e.world := by
  rcases hpanics.raises hstack with ⟨captured, a', r, hraises⟩
  have hresult : a'.flow.result = .empty := by
    rw [hraises.flow, hpanics.onward hstack]
    rfl
  have huncaught' : forall b, b ∈ a'.blocks -> forall swallow, b.kind ≠ .attempt swallow := by
    intro b hb swallow
    rcases hraises.kind_mem hb with ⟨b', hb', hkind⟩
    rw [<- hkind]
    exact huncaught b' hb' swallow
  rcases (h.step hraises.step).collapses hmain hraises.control hraises.stack hresult huncaught' with
    ⟨e, hcollapses, hrun⟩
  exact ⟨captured, a', r, e, hraises, hcollapses, hrun⟩

/-- A small program: its main code panics while it holds a parked fiber, and a shared slot a fresh one. -/
def Program.failingMain : Program where
  hosts := []
  main :=
    [.create ⟨.shared "@h", "H", none, .heap "B" 4096⟩ ["k"] [] [],
      .create ⟨.own "f", "F", none, .heap "A" 4096⟩ ["g"] []
        [.resume ⟨.own "caller", false, none, .own "caller", .keep⟩],
      .resume ⟨.own "f", false, none, .own "f", .keep⟩,
      .panic (.text "oops")]

set_option maxRecDepth 10000 in
/-- Both fibers of that program are unwound, and it ends with the text of its panic. -/
theorem panic_unwinds_of_failingMain :
    exists past s a captured a' r e, Program.failingMain.Reaches past s ∧
      contextKeys s.contexts = [2, 1, mainContext] ∧ .token .handle 2 ∈ a.holdings ∧
        .token .handle 1 ∈ s.world.holdings ∧
        s.Raises (.text "oops") a [.root .program] captured a' r ∧ r.Collapses (.text "oops") e ∧
          Program.failingMain.run = .ofWorld (.panicked (.text "oops")) e.world := by
  have hafter : exists s a entries code,
      Config.after 16 (.active Program.failingMain.start) = .active s ∧
        s.stack = [.code a, .root .program] ∧ contextKeys s.contexts = [2, 1, mainContext] ∧
          .token .handle 2 ∈ a.holdings ∧ .token .handle 1 ∈ s.world.holdings ∧
            a.blocks = [⟨.body, code, entries⟩] ∧ s.operation? = some (.panic (.text "oops")) :=
    ⟨_, _, _, _, rfl, rfl, rfl, List.mem_cons_self, List.mem_cons_self, rfl, rfl⟩
  rcases hafter with ⟨s, a, entries, code, hs, hstack, hkeys, hheld, hshared, hblocks, hop⟩
  rcases Program.after_eq_active.mp hs with ⟨past, -, hreach⟩
  have huncaught : forall b, b ∈ a.blocks -> forall swallow, b.kind ≠ .attempt swallow := by
    intro b hb swallow
    rw [hblocks, List.mem_singleton] at hb
    rw [hb]
    exact nofun
  rcases panic_unwinds rfl hreach hstack (.raised hop) huncaught with
    ⟨captured, a', r, e, hraises, hcollapses, hrun⟩
  exact ⟨past, s, a, captured, a', r, e, hreach, hkeys, hheld, hshared, hraises, hcollapses, hrun⟩

end Fibers
