import Fibers.Host
import Mathlib.Data.List.Pairwise

/-!
# Hosts that are handed out

A host belongs to one caller: to a thread, which is given the same one each time it asks, or to a
single call that draws.  This holds until the counter comes round.  The call that meets zero fails,
and the counter goes on behind it: the next host that is drawn is the first one once more.
-/

namespace Fibers

/-- A call for a host: for one that nobody has, or for that of a thread. -/
inductive HostCall where
  | draw
  | ofThread (thread : ThreadId)
deriving DecidableEq

/-- The thread that is to keep what a call is answered with. -/
def HostCall.thread? : HostCall -> Option ThreadId
  | draw => none
  | ofThread thread => some thread

namespace HostLedger

variable {l l' : HostLedger} {call : HostCall} {calls rest : List HostCall} {x : HostCall × Host}
  {thread other : ThreadId} {host : Host} {got : Option Host}

/-! ## Calls one after another -/

def answer (l : HostLedger) : HostCall -> Option Host × HostLedger
  | .draw => l.draw
  | .ofThread thread => l.ofThread thread

/-- The ledger after some calls.  Those that fail leave their mark as well. -/
def after (l : HostLedger) : List HostCall -> HostLedger
  | [] => l
  | call :: rest => (l.answer call).2.after rest

/-- The hosts that some calls are answered with, each with its call. -/
def handedOut (l : HostLedger) : List HostCall -> List (HostCall × Host)
  | [] => []
  | call :: rest => (l.answer call).1.toList.map (call, ·) ++ (l.answer call).2.handedOut rest

/-- Whether a call takes a number from the counter; a thread that has a host takes none. -/
def isDrawing (l : HostLedger) : HostCall -> Bool
  | .draw => true
  | .ofThread thread => (l.threads.lookup thread).isNone

/-- How many of some calls take a number from the counter. -/
def draws (l : HostLedger) : List HostCall -> Nat
  | [] => 0
  | call :: rest => (l.isDrawing call).toNat + (l.answer call).2.draws rest

theorem handedOut_append :
    l.handedOut (calls ++ rest) = l.handedOut calls ++ (l.after calls).handedOut rest := by
  induction calls generalizing l with
  | nil => rfl
  | cons call calls ih =>
      simp only [List.cons_append, handedOut, after, ih, List.append_assoc]

theorem draws_replicate (n : Nat) : l.draws (List.replicate n .draw) = n := by
  induction n generalizing l with
  | zero => rfl
  | succ n ih =>
      rw [List.replicate_succ, draws, ih, isDrawing, Bool.toNat_true, Nat.add_comm]

/-! ## One call -/

theorem isDrawing_held (hlookup : l.threads.lookup thread = some host) :
    l.isDrawing (.ofThread thread) = false := by
  rw [isDrawing, hlookup]
  rfl

theorem not_held (hdrawing : l.isDrawing (.ofThread thread) = true) :
    l.threads.lookup thread ≠ some host := by
  intro hlookup
  rw [isDrawing_held hlookup] at hdrawing
  cases hdrawing

/-- The ledger when a host was drawn for a call: a thread keeps it. -/
def given (l : HostLedger) (call : HostCall) (host : Host) : HostLedger where
  next := l.next + 1
  threads := call.thread?.toList.map (·, host) ++ l.threads

/-- A thread that has a host after a drawing call had it before, or has just been given it. -/
theorem lookup_given {k : Host} (h : (l.given call host).threads.lookup thread = some k) :
    (call = .ofThread thread ∧ k = host) ∨ l.threads.lookup thread = some k := by
  cases call with
  | draw => exact Or.inr h
  | ofThread asking =>
      change ((asking, host) :: l.threads).lookup thread = some k at h
      rw [List.lookup_cons] at h
      split at h
      · rename_i hsame
        cases eq_of_beq hsame
        exact Or.inl ⟨rfl, (Option.some.inj h).symm⟩
      · exact Or.inr h

/-- All that a call can be answered with, and what it leaves. -/
inductive Answers (l : HostLedger) : HostCall -> Option Host -> HostLedger -> Prop where
  /-- A thread that has a host is given the same one again. -/
  | held {thread : ThreadId} {host : Host} :
      l.threads.lookup thread = some host -> Answers l (.ofThread thread) (some host) l
  | drawn {call : HostCall} {host : Host} :
      l.isDrawing call = true -> host.number = l.next ->
        Answers l call (some host) (l.given call host)
  | failed {call : HostCall} : l.isDrawing call = true -> l.next = 0 ->
      Answers l call none { l with next := l.next + 1 }

/-- At zero, no call that draws is answered with a host. -/
theorem answer_of_zero (hdrawing : l.isDrawing call = true) (hzero : l.next = 0) :
    l.answer call = (none, { l with next := l.next + 1 }) := by
  have hdraw : l.draw = (none, { l with next := l.next + 1 }) := by
    simp [HostLedger.draw, hzero]
  cases call with
  | draw => exact hdraw
  | ofThread thread =>
      have hnone := Option.isNone_iff_eq_none.mp hdrawing
      simp only [answer, ofThread, hnone, hdraw]

/-- Elsewhere it is answered with the number that the counter has. -/
theorem answer_of_number (hdrawing : l.isDrawing call = true) (hnumber : host.number = l.next) :
    l.answer call = (some host, l.given call host) := by
  have hne : l.next ≠ 0 := hnumber ▸ host.nonzero
  have hhost : host = ⟨l.next, hne⟩ := by
    cases host
    cases hnumber
    rfl
  have hdraw : l.draw = (some host, { l with next := l.next + 1 }) := by
    simp [HostLedger.draw, hne, hhost]
  cases call with
  | draw => exact hdraw
  | ofThread thread =>
      have hnone := Option.isNone_iff_eq_none.mp hdrawing
      simp only [answer, ofThread, hnone, hdraw]
      rfl

theorem answers (l : HostLedger) (call : HostCall) :
    l.Answers call (l.answer call).1 (l.answer call).2 := by
  cases hdrawing : l.isDrawing call with
  | true =>
      by_cases hzero : l.next = 0
      · rw [answer_of_zero hdrawing hzero]
        exact .failed hdrawing hzero
      · have hnumber : Host.number ⟨l.next, hzero⟩ = l.next := rfl
        rw [answer_of_number hdrawing hnumber]
        exact .drawn hdrawing hnumber
  | false =>
      cases call with
      | draw => cases hdrawing
      | ofThread thread =>
          have hsome := Option.isNone_eq_false_iff.mp hdrawing
          rcases Option.isSome_iff_exists.mp hsome with ⟨host, hlookup⟩
          simp only [answer, ofThread, hlookup]
          exact .held hlookup

/-- What a first call does, and what the others then find. -/
theorem cons_cases (l : HostLedger) (call : HostCall) (rest : List HostCall) :
    exists got l', l.Answers call got l' ∧
      l.handedOut (call :: rest) = got.toList.map (call, ·) ++ l'.handedOut rest ∧
      l.draws (call :: rest) = (l.isDrawing call).toNat + l'.draws rest ∧
      l.after (call :: rest) = l'.after rest :=
  ⟨_, _, l.answers call, rfl, rfl, rfl⟩

namespace Answers

/-- The counter moves on with each call that draws, whether it fails or not. -/
theorem next (h : l.Answers call got l') :
    l'.next = l.next + UInt64.ofNat (l.isDrawing call).toNat := by
  cases h with
  | held hlookup => rw [isDrawing_held hlookup]; simp
  | drawn hdrawing | failed hdrawing => rw [hdrawing]; rfl

/-- A thread keeps the host that it has. -/
theorem lookup (h : l.Answers call got l') (hlookup : l.threads.lookup other = some host) :
    l'.threads.lookup other = some host := by
  cases h with
  | held | failed => exact hlookup
  | @drawn call _ hdrawing =>
      cases call with
      | draw => exact hlookup
      | ofThread thread =>
          have hne : (other == thread) = false := by
            rw [beq_eq_false_iff_ne]
            rintro rfl
            exact not_held hdrawing hlookup
          change ((thread, _) :: l.threads).lookup other = some host
          rw [List.lookup_cons, hne]
          exact hlookup

/-- Whatever a thread is answered with, it has from then on. -/
theorem kept (h : l.Answers (.ofThread thread) (some host) l') :
    l'.threads.lookup thread = some host := by
  cases h with
  | held hlookup => exact hlookup
  | drawn => exact List.lookup_cons_self

end Answers

/-- A thread that has a host is never answered with another one. -/
theorem eq_of_lookup {k : Host} (hlookup : l.threads.lookup thread = some host)
    (hk : (HostCall.ofThread thread, k) ∈ l.handedOut calls) : k = host := by
  induction calls generalizing l with
  | nil => cases hk
  | cons call calls ih =>
      rcases l.cons_cases call calls with ⟨got, l', hanswers, hhanded, -⟩
      have hkept := hanswers.lookup hlookup
      rw [hhanded] at hk
      rcases List.mem_append.mp hk with hnow | hlater
      · rcases List.mem_map.mp hnow with ⟨host', hhost', hpair⟩
        cases hpair
        cases Option.mem_toList.mp hhost'
        cases hanswers with
        | held hheld => exact Option.some.inj (hheld.symm.trans hlookup)
        | drawn hdrawing => exact absurd hlookup (not_held hdrawing)
      · exact ih hkept hlater

/-! ## Numbers -/

/-- The counter tells how often a number was taken. -/
theorem next_after : (l.after calls).next = l.next + UInt64.ofNat (l.draws calls) := by
  induction calls generalizing l with
  | nil => simp [after, draws]
  | cons call calls ih =>
      rw [after, ih, (l.answers call).next, draws, UInt64.ofNat_add, UInt64.add_assoc]

/-- How far the counter has come, zero being the last number that it comes to. -/
def reach (l : HostLedger) : Nat := if l.next = 0 then UInt64.size else l.next.toNat

theorem reach_of_zero (h : l.next = 0) : l.reach = UInt64.size := if_pos h

theorem reach_of_number (h : host.number = l.next) :
    l.reach = host.number.toNat ∧ l.reach < UInt64.size := by
  have hne : l.next ≠ 0 := h ▸ host.nonzero
  rw [reach, if_neg hne, h]
  exact ⟨rfl, l.next.toNat_lt_size⟩

/-- Before it comes round, the counter goes up. -/
theorem reach_succ (hnext : l'.next = l.next + 1) (h : l.reach < UInt64.size) :
    l'.reach = l.reach + 1 := by
  have hne : l.next ≠ 0 := fun hzero => absurd (reach_of_zero hzero) (Nat.ne_of_lt h)
  have hreach : l.reach = l.next.toNat := if_neg hne
  have hsum : l'.next.toNat = (l.next.toNat + 1) % UInt64.size := by
    rw [hnext, UInt64.toNat_add]
    rfl
  rw [hreach] at h ⊢
  by_cases hround : l'.next = 0
  · rw [reach_of_zero hround]
    rw [hround, UInt64.toNat_zero] at hsum
    have hdvd := Nat.le_of_dvd (Nat.succ_pos _) (Nat.dvd_of_mod_eq_zero hsum.symm)
    omega
  · rw [reach, if_neg hround, hsum]
    apply Nat.mod_eq_of_lt
    refine Nat.lt_of_le_of_ne h fun hsize => hround ?_
    rw [hsize, Nat.mod_self] at hsum
    exact UInt64.toNat_inj.mp hsum

/-- The counter does not come round in these calls, unless it does so in the last one that draws. -/
def HasRoom (l : HostLedger) (calls : List HostCall) : Prop :=
  0 < l.draws calls -> l.reach + l.draws calls ≤ UInt64.size + 1

theorem HasRoom.later (hroom : l.HasRoom (call :: calls)) (h : l.Answers call got l')
    (hcons : l.draws (call :: calls) = (l.isDrawing call).toNat + l'.draws calls) :
    l'.HasRoom calls := by
  intro hdraws
  rw [HasRoom, hcons] at hroom
  cases h with
  | held hlookup =>
      rw [isDrawing_held hlookup, Bool.toNat_false, Nat.zero_add] at hroom
      exact hroom hdraws
  | drawn hdrawing hnumber =>
      rw [hdrawing, Bool.toNat_true] at hroom
      rw [reach_succ rfl (reach_of_number hnumber).2]
      omega
  | failed hdrawing hzero =>
      rw [hdrawing, Bool.toNat_true, reach_of_zero hzero] at hroom
      omega

/-- What is handed out is held by a thread already, or has a number that was not reached yet. -/
theorem held_or_reach_le (hroom : l.HasRoom calls) (hx : x ∈ l.handedOut calls) :
    (exists thread, x.1 = .ofThread thread ∧ l.threads.lookup thread = some x.2) ∨
      0 < l.draws calls ∧ l.reach ≤ x.2.number.toNat := by
  induction calls generalizing l with
  | nil => cases hx
  | cons call calls ih =>
      rcases l.cons_cases call calls with ⟨got, l', hanswers, hhanded, hdraws, -⟩
      have hlater := ih (hroom.later hanswers hdraws)
      rw [hhanded, List.mem_append, List.mem_map] at hx
      rw [HasRoom, hdraws] at hroom
      rw [hdraws]
      cases hanswers with
      | @held thread host hlookup =>
          rcases hx with ⟨k, hk, rfl⟩ | hx
          · cases Option.mem_toList.mp hk
            exact Or.inl ⟨thread, rfl, hlookup⟩
          · rw [isDrawing_held hlookup, Bool.toNat_false, Nat.zero_add]
            exact hlater hx
      | @drawn call host hdrawing hnumber =>
          have hreach := reach_of_number hnumber
          have hpos : 0 < (l.isDrawing call).toNat := by
            rw [hdrawing]
            exact Nat.one_pos
          rcases hx with ⟨k, hk, rfl⟩ | hx
          · cases Option.mem_toList.mp hk
            exact Or.inr ⟨Nat.add_pos_left hpos _, Nat.le_of_eq hreach.1⟩
          · rcases hlater hx with ⟨other, hother, hheld⟩ | ⟨-, hle⟩
            · rcases lookup_given hheld with ⟨-, heq⟩ | hbefore
              · rw [heq]
                exact Or.inr ⟨Nat.add_pos_left hpos _, Nat.le_of_eq hreach.1⟩
              · exact Or.inl ⟨other, hother, hbefore⟩
            · rw [reach_succ rfl hreach.2] at hle
              exact Or.inr ⟨Nat.add_pos_left hpos _, Nat.le_of_succ_le hle⟩
      | failed hdrawing hzero =>
          rw [hdrawing, Bool.toNat_true, reach_of_zero hzero] at hroom
          rcases hx with ⟨k, hk, -⟩ | hx
          · cases Option.mem_toList.mp hk
          · rcases hlater hx with hheld | ⟨hdraws', -⟩
            · exact Or.inl hheld
            · omega

/-! ## No two callers are the same host -/

/--
The calls have room, and the hosts of threads are different.  As long as a number is still to be
taken, theirs are behind the counter.
-/
structure Orderly (l : HostLedger) (calls : List HostCall) : Prop where
  room : l.HasRoom calls
  apart : forall t u k, l.threads.lookup t = some k -> l.threads.lookup u = some k -> t = u
  below : 0 < l.draws calls -> forall t k, l.threads.lookup t = some k -> k.number.toNat < l.reach

theorem orderly_start (h : draws {} calls ≤ UInt64.size) : Orderly {} calls where
  room := fun _ => Nat.le_trans (Nat.le_of_eq (Nat.add_comm _ _)) (Nat.succ_le_succ h)
  apart := fun _ _ _ hlookup => by cases hlookup
  below := fun _ _ _ hlookup => by cases hlookup

theorem Orderly.later (h : l.Orderly (call :: calls)) (hanswers : l.Answers call got l')
    (hcons : l.draws (call :: calls) = (l.isDrawing call).toNat + l'.draws calls) :
    l'.Orderly calls := by
  have hbelow := h.below
  rw [hcons] at hbelow
  refine ⟨h.room.later hanswers hcons, ?_, ?_⟩
  · cases hanswers with
    | held | failed => exact h.apart
    | @drawn call host hdrawing hnumber =>
        rw [hdrawing] at hbelow
        have hnew : forall t, l.threads.lookup t ≠ some host := by
          intro t ht
          have hlt := hbelow (Nat.add_pos_left Nat.one_pos _) t host ht
          rw [(reach_of_number hnumber).1] at hlt
          exact Nat.lt_irrefl _ hlt
        intro t u k ht hu
        rcases lookup_given ht with ⟨htcall, rfl⟩ | ht
        · rcases lookup_given hu with ⟨hucall, -⟩ | hu
          · exact HostCall.ofThread.inj (htcall.symm.trans hucall)
          · exact absurd hu (hnew u)
        · rcases lookup_given hu with ⟨-, heq⟩ | hu
          · exact absurd (heq ▸ ht) (hnew t)
          · exact h.apart t u k ht hu
  · intro hdraws t k hk
    have hlt := hbelow (Nat.add_pos_right _ hdraws) t k
    cases hanswers with
    | held => exact hlt hk
    | @drawn call host _ hnumber =>
        have hreach := reach_of_number hnumber
        rw [reach_succ rfl hreach.2]
        rcases lookup_given hk with ⟨-, rfl⟩ | hk
        · rw [hreach.1]
          exact Nat.lt_succ_self _
        · exact Nat.lt_succ_of_lt (hlt hk)
    | failed hdrawing hzero =>
        have hroom := h.room
        rw [HasRoom, hcons, hdrawing, Bool.toNat_true, reach_of_zero hzero] at hroom
        omega

/-- Two calls are made by the same thread. -/
def SameThread (x y : HostCall × Host) : Prop :=
  exists thread, x.1 = .ofThread thread ∧ y.1 = .ofThread thread

theorem Orderly.eq_iff_sameThread (h : l.Orderly calls)
    (hlookup : l.threads.lookup thread = some host) (hx : x ∈ l.handedOut calls) :
    host = x.2 ↔ SameThread (.ofThread thread, host) x := by
  constructor
  · intro heq
    rcases held_or_reach_le h.room hx with ⟨other, hother, hheld⟩ | ⟨hdraws, hle⟩
    · cases h.apart thread other host hlookup (heq ▸ hheld)
      exact ⟨thread, rfl, hother⟩
    · have hlt := h.below hdraws thread host hlookup
      rw [heq] at hlt
      exact absurd hlt (Nat.not_lt.mpr hle)
  · rintro ⟨other, hother, hcall⟩
    cases hother
    have hmem : (HostCall.ofThread thread, x.2) ∈ l.handedOut calls := hcall ▸ hx
    exact (eq_of_lookup hlookup hmem).symm

/-- A number that is taken is behind the counter, and so it is not taken again. -/
theorem Orderly.ne_of_drawn (h : l.Orderly (.draw :: calls)) (hnumber : host.number = l.next)
    (hroom : (l.given .draw host).HasRoom calls) (hx : x ∈ (l.given .draw host).handedOut calls) :
    host ≠ x.2 := by
  have hreach := reach_of_number hnumber
  rintro rfl
  rcases held_or_reach_le hroom hx with ⟨thread, -, hheld⟩ | ⟨-, hle⟩
  · have hlt := h.below (Nat.add_pos_left Nat.one_pos _) thread x.2 hheld
    rw [hreach.1] at hlt
    exact Nat.lt_irrefl _ hlt
  · rw [reach_succ rfl hreach.2, hreach.1] at hle
    exact Nat.not_succ_le_self _ hle

theorem Orderly.pairwise (h : l.Orderly calls) :
    (l.handedOut calls).Pairwise fun x y => x.2 = y.2 ↔ SameThread x y := by
  induction calls generalizing l with
  | nil => exact .nil
  | cons call calls ih =>
      rcases l.cons_cases call calls with ⟨got, l', hanswers, hhanded, hdraws, -⟩
      have hlater := h.later hanswers hdraws
      rw [hhanded]
      cases got with
      | none => exact ih hlater
      | some host =>
          refine .cons (fun y hy => ?_) (ih hlater)
          cases call with
          | ofThread thread => exact hlater.eq_iff_sameThread hanswers.kept hy
          | draw =>
              cases hanswers with
              | drawn _ hnumber =>
                  refine iff_of_false (h.ne_of_drawn hnumber hlater.room hy) ?_
                  rintro ⟨thread, hthread, -⟩
                  cases hthread

/-- A thread is given the same host each time, whatever has come round. -/
theorem pairwise_sameThread :
    (l.handedOut calls).Pairwise fun x y => SameThread x y -> x.2 = y.2 := by
  induction calls generalizing l with
  | nil => exact .nil
  | cons call calls ih =>
      rcases l.cons_cases call calls with ⟨got, l', hanswers, hhanded, -⟩
      rw [hhanded]
      cases got with
      | none => exact ih
      | some host =>
          refine .cons ?_ ih
          rintro y hy ⟨thread, hthread, hcall⟩
          cases hthread
          have hmem : (HostCall.ofThread thread, y.2) ∈ l'.handedOut calls := hcall ▸ hy
          exact (eq_of_lookup hanswers.kept hmem).symm

/-- No call fails before the counter comes round. -/
theorem map_fst_handedOut (h : l.reach + l.draws calls ≤ UInt64.size) :
    (l.handedOut calls).map Prod.fst = calls := by
  induction calls generalizing l with
  | nil => rfl
  | cons call calls ih =>
      rcases l.cons_cases call calls with ⟨got, l', hanswers, hhanded, hdraws, -⟩
      rw [hdraws] at h
      rw [hhanded]
      cases hanswers with
      | held hlookup =>
          rw [isDrawing_held hlookup, Bool.toNat_false, Nat.zero_add] at h
          exact congrArg _ (ih h)
      | drawn hdrawing hnumber =>
          refine congrArg _ (ih ?_)
          rw [hdrawing, Bool.toNat_true] at h
          rw [reach_succ rfl (reach_of_number hnumber).2]
          omega
      | failed hdrawing hzero =>
          rw [hdrawing, Bool.toNat_true, reach_of_zero hzero] at h
          omega

/--
A thread is given the same host each time it asks.  As long as no call has come after one that met
zero, nobody else is given that host, and each host that is drawn goes to a single call.  No call
fails until then.
-/
theorem hosts_kept_apart (calls : List HostCall) :
    ((handedOut {} calls).Pairwise fun x y => SameThread x y -> x.2 = y.2) ∧
      (draws {} calls ≤ UInt64.size ->
        (handedOut {} calls).Pairwise fun x y => x.2 = y.2 ↔ SameThread x y) ∧
      (draws {} calls < UInt64.size -> (handedOut {} calls).map Prod.fst = calls) := by
  refine ⟨pairwise_sameThread, fun h => (orderly_start h).pairwise, fun h => ?_⟩
  exact map_fst_handedOut (Nat.le_trans (Nat.le_of_eq (Nat.add_comm _ _)) h)

/-! ## The counter comes round -/

theorem handedOut_draw (hnumber : host.number = l.next) :
    l.handedOut (.draw :: calls) = (.draw, host) :: (l.given .draw host).handedOut calls := by
  rw [handedOut, answer_of_number rfl hnumber]
  rfl

/-- A host that is drawn is drawn again when all other numbers have been taken. -/
theorem mem_handedOut_again (hnumber : host.number = l.next) :
    (HostCall.draw, host) ∈
      (l.given .draw host).handedOut (List.replicate UInt64.size .draw) := by
  have hlast : ((l.given .draw host).after
      (List.replicate (UInt64.size - 1) .draw)).next = l.next := by
    rw [next_after, draws_replicate, given, UInt64.add_assoc]
    exact UInt64.add_zero _
  have hsplit : List.replicate UInt64.size HostCall.draw =
      List.replicate (UInt64.size - 1) .draw ++ [.draw] := List.replicate_succ'
  rw [hsplit, handedOut_append, handedOut_draw (hnumber.trans hlast.symm)]
  exact List.mem_append_right _ List.mem_cons_self

/--
A counter that has come round hands out the same hosts again: of so many calls, the last is answered
with the host of the first.
-/
theorem hosts_come_round :
    ¬ (handedOut {} (List.replicate (UInt64.size + 1) .draw)).Pairwise
      fun x y => x.2 = y.2 ↔ SameThread x y := by
  have hfirst : (default : Host).number = HostLedger.next {} := rfl
  rw [List.replicate_succ, handedOut_draw hfirst]
  intro hpairwise
  have hagain := List.rel_of_pairwise_cons hpairwise (mem_handedOut_again hfirst)
  rcases hagain.mp rfl with ⟨thread, hthread, -⟩
  cases hthread

end HostLedger

end Fibers
