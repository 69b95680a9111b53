import Fibers.Machine.Execute

/-!
# Where records lie

Aligning a record down can cost anything up to 255 bytes, depending on the low bits of the stack's
top and on the size of the record.  A stack that passes the check has room for the worst of it: the
record lies on the stack, with the gap and more than the least room below it.  In machine words, none
of the subtractions on the way wraps.
-/

namespace Fibers

/-! ## Aligning down -/

theorem dvd_alignDown (a unit : Nat) : unit ∣ alignDown a unit := Nat.dvd_mul_left _ _

theorem alignDown_le (a unit : Nat) : alignDown a unit ≤ a := Nat.div_mul_le_self a unit

/-- Aligning down costs less than one unit. -/
theorem lt_alignDown_add {unit : Nat} (a : Nat) (hunit : 0 < unit) :
    a < alignDown a unit + unit := by
  have hdiv := Nat.div_add_mod a unit
  have hmod := Nat.mod_lt a hunit
  rw [Nat.mul_comm] at hdiv
  unfold alignDown
  omega

namespace Placement

/-! ### Masks

Words are aligned down with a mask that clears their low eight bits, which is to shift them out and
back in as zeros.
-/

theorem getElem_mask {i : Nat} (hi : i < 64) : (255#64)[i] = decide (i < 8) :=
  Nat.testBit_two_pow_sub_one 8 i

theorem clear_eq_shift (a : BitVec 64) : a &&& ~~~255#64 = (a >>> 8) <<< 8 := by
  ext i hi
  simp only [BitVec.getElem_and, BitVec.getElem_not, getElem_mask, BitVec.getElem_shiftLeft]
  by_cases hlow : i < 8
  · simp [hlow]
  · have hback : 8 + (i - 8) = i := Nat.add_sub_of_le (Nat.le_of_not_lt hlow)
    simp [hlow, hback, BitVec.getLsbD_eq_getElem hi]

theorem toNat_clear (a : UInt64) :
    (a &&& ~~~(256 - 1)).toNat = alignDown a.toNat recordAlignment := by
  have hcleared : (a &&& ~~~(256 - 1)).toBitVec = (a.toBitVec >>> 8) <<< 8 :=
    clear_eq_shift a.toBitVec
  have hvalue := congrArg BitVec.toNat hcleared
  rw [BitVec.toNat_shiftLeft, BitVec.toNat_ushiftRight, Nat.shiftLeft_eq,
    Nat.shiftRight_eq_div_pow] at hvalue
  have hlt : a.toNat / 256 * 256 < 2 ^ 64 :=
    Nat.lt_of_le_of_lt (alignDown_le a.toNat 256) a.toNat_lt
  exact hvalue.trans (Nat.mod_eq_of_lt hlt)

/-! ## Records on their stacks -/

/-- A record and what its fiber runs on lie on a stack as they should. -/
structure Fits (p : Placement) (stack : Region) (size : Nat) : Prop where
  aligned : 256 ∣ p.record
  onStack : stack.bottom ≤ p.record ∧ p.record + size ≤ stack.top
  gap : p.usable.top + 64 = p.record
  usableAligned : 64 ∣ p.usable.top
  usableBottom : p.usable.bottom = stack.bottom
  usableOnStack : p.usable.top ≤ stack.top
  apart : p.usable.Apart ⟨p.record, p.record + size⟩
  room : 1024 < p.usable.size

/-- The address of a record in machine words, from the top of its stack. -/
def recordWord (top : UInt64) (size : Nat) : UInt64 := (top - .ofNat size) &&& ~~~(256 - 1)

/-- A placement is what machine words make of the ends of a stack, and no subtraction wraps. -/
structure OnWords (p : Placement) (bottom top : UInt64) (size : Nat) : Prop where
  span : bottom ≤ top ∧ (top - bottom).toNat = top.toNat - bottom.toNat
  start : size ≤ top.toNat ∧ (top - .ofNat size).toNat = top.toNat - size
  record : (recordWord top size).toNat = p.record
  gap : 64 ≤ recordWord top size ∧ (recordWord top size - 64).toNat = p.usable.top

/-- A stack that passes the check has its record where it should be. -/
theorem onStack_fits (stack : Region) {size : Nat}
    (hsize : size + 256 + 64 + 1024 ≤ stack.size) :
    exists p, onStack stack size = .ok p ∧
      p.record = alignDown (stack.top - size) recordAlignment ∧ p.Fits stack size := by
  have hrequired : ¬ stack.size < required size := Nat.not_lt.mpr hsize
  unfold onStack
  rw [if_neg hrequired]
  refine ⟨_, rfl, rfl, ?_⟩
  have hle := alignDown_le (stack.top - size) recordAlignment
  have hlt := lt_alignDown_add (stack.top - size) (show 0 < recordAlignment by decide)
  have haligned : 256 ∣ alignDown (stack.top - size) recordAlignment := dvd_alignDown _ _
  generalize alignDown (stack.top - size) recordAlignment = record at *
  simp only [Region.size, recordAlignment] at hsize hlt
  have hgap : record - recordGap + 64 = record := by
    unfold recordGap
    omega
  have hhalf : 64 ∣ record := Nat.dvd_trans (by decide) haligned
  exact {
    aligned := haligned
    onStack := by
      change stack.bottom ≤ record ∧ record + size ≤ stack.top
      omega
    gap := hgap
    usableAligned := Nat.dvd_sub hhalf (Nat.dvd_refl 64)
    usableBottom := rfl
    usableOnStack := by
      change record - recordGap ≤ stack.top
      omega
    apart := Region.apart_of_le (Nat.sub_le _ _)
    room := by
      change 1024 < record - recordGap - stack.bottom
      omega }

/-- The same addresses come out in machine words. -/
theorem Fits.onWords {p : Placement} {bottom top : UInt64} {size : Nat}
    (hfits : p.Fits ⟨bottom.toNat, top.toNat⟩ size)
    (hrecord : p.record = alignDown (top.toNat - size) recordAlignment) (hrange : bottom < top) :
    p.OnWords bottom top size := by
  have hgap := hfits.gap
  have hle : size ≤ top.toNat := Nat.le_of_add_left_le hfits.onStack.2
  have hword : (UInt64.ofNat size).toNat = size :=
    UInt64.toNat_ofNat_of_lt' (Nat.lt_of_le_of_lt hle top.toNat_lt)
  have hstart : (top - .ofNat size).toNat = top.toNat - size := by
    rw [UInt64.toNat_sub_of_le _ _ (UInt64.le_iff_toNat_le.mpr (hword.symm ▸ hle)), hword]
  have hplaced : (recordWord top size).toNat = p.record := by
    rw [recordWord, toNat_clear, hstart, hrecord]
  have hgapped : 64 ≤ recordWord top size := by
    rw [UInt64.le_iff_toNat_le, hplaced, <- hgap]
    exact Nat.le_add_left _ _
  exact {
    span := ⟨UInt64.le_of_lt hrange, UInt64.toNat_sub_of_le _ _ (UInt64.le_of_lt hrange)⟩
    start := ⟨hle, hstart⟩
    record := hplaced
    gap := by
      refine ⟨hgapped, ?_⟩
      rw [UInt64.toNat_sub_of_le _ _ hgapped, hplaced, <- hgap]
      exact Nat.add_sub_cancel _ _ }

end Placement

/-! ## What becomes of a stack -/

/--
A fiber comes up on this stack: code that has got it from any allocator brings the fiber up with a
record of this size, to run on what the placement leaves below the record.
-/
def Region.Takes (stack : Region) (size : Nat) (p : Placement) : Prop :=
  forall (s : State) (scene : Scene) (below : List Frame) (spec : FiberSpec) (f : Closure)
    (fiber : ContextId),
    s.place scene below spec f fiber stack size =
      s.launch scene below spec.slot fiber ⟨⟨spec.name, stack, spec.allocator.label?⟩, some f⟩
        p.usable

/--
No fiber comes up on this stack: code that has got it from any allocator goes on with the failure,
which tells the size of the stack and the one that is required.  The stack goes back to where it came
from, and nothing else is done: there is no context, no registered range and no address more than
before.
-/
def Region.Refuses (stack : Region) (size required : Nat) : Prop :=
  forall (s : State) (scene : Scene) (below : List Frame) (spec : FiberSpec) (f : Closure)
    (fiber : ContextId),
    s.place scene below spec f fiber stack size = .active
      { s with
        world :=
          { scene.world with
            liveStacks := scene.world.liveStacks - spec.allocator.label?.elim 0 fun _ => 1
            log :=
              spec.allocator.label?.toList.map (fun label => .deallocated label s.kind) ++
                scene.world.log }
        stack := dropFirst f.captured
          (.calling (.failBuild (.stackTooSmall stack.size required)) scene.code :: below)
        control := .run }

theorem Region.takes_of_onStack {stack : Region} {size : Nat} {p : Placement}
    (hplaced : Placement.onStack stack size = .ok p) : stack.Takes size p := by
  intro s scene below spec f fiber
  simp only [State.place, hplaced]

theorem Region.refuses_of_small {stack : Region} {size : Nat}
    (hsmall : stack.size < size + 256 + 64 + 1024) :
    stack.Refuses size (size + 256 + 64 + 1024) := by
  intro s scene below spec f fiber
  have hrefused : Placement.onStack stack size =
      .error (.stackTooSmall stack.size (size + 256 + 64 + 1024)) :=
    Placement.onStack_of_small hsmall
  have hreturned : scene.world.returnStack spec.allocator.label? s.kind =
      { scene.world with
        liveStacks := scene.world.liveStacks - spec.allocator.label?.elim 0 fun _ => 1
        log :=
          spec.allocator.label?.toList.map (fun label => .deallocated label s.kind) ++
            scene.world.log } := by
    cases spec.allocator.label? with
    | none => simp [World.returnStack]
    | some label => rfl
  simp only [State.place, hrefused, hreturned]
  rfl

/--
Records are placed right for every range of machine addresses and every size of a record.  A stack of
enough bytes takes the record and all that belongs around it, whatever the alignment of its ends, and
machine words compute the same addresses without wrapping.  One of fewer bytes is refused, with its
size and the required one, and goes back as it was.
-/
theorem record_placed {bottom top : UInt64} (hrange : bottom < top) (size : Nat) :
    (top - bottom).toNat = top.toNat - bottom.toNat ∧
      (size + 256 + 64 + 1024 ≤ (top - bottom).toNat ->
        exists p, Placement.onStack ⟨bottom.toNat, top.toNat⟩ size = .ok p ∧
          p.Fits ⟨bottom.toNat, top.toNat⟩ size ∧ p.OnWords bottom top size ∧
          Region.Takes ⟨bottom.toNat, top.toNat⟩ size p) ∧
      ((top - bottom).toNat < size + 256 + 64 + 1024 ->
        Placement.onStack ⟨bottom.toNat, top.toNat⟩ size =
            .error (.stackTooSmall (top - bottom).toNat (size + 256 + 64 + 1024)) ∧
          Region.Refuses ⟨bottom.toNat, top.toNat⟩ size (size + 256 + 64 + 1024)) := by
  have hspan : (top - bottom).toNat = top.toNat - bottom.toNat :=
    UInt64.toNat_sub_of_le _ _ (UInt64.le_of_lt hrange)
  rw [hspan]
  refine ⟨rfl, ?_, ?_⟩
  · intro hsize
    rcases Placement.onStack_fits ⟨bottom.toNat, top.toNat⟩ hsize with
      ⟨p, hplaced, hrecord, hfits⟩
    exact ⟨p, hplaced, hfits, hfits.onWords hrecord hrange, Region.takes_of_onStack hplaced⟩
  · intro hsmall
    exact ⟨Placement.onStack_of_small hsmall, Region.refuses_of_small hsmall⟩

/-- A range of odd ends that is just large enough for a record of 72 bytes, and one byte less. -/
theorem record_placed_of_oddEnds :
    (0x10001 : UInt64) < 0x10589 ∧
      Placement.onStack ⟨0x10001, 0x10589⟩ 72 = .ok ⟨0x10500, ⟨0x10001, 0x104c0⟩⟩ ∧
      Region.Takes ⟨0x10001, 0x10589⟩ 72 ⟨0x10500, ⟨0x10001, 0x104c0⟩⟩ ∧
      (0x10001 : UInt64) < 0x10588 ∧
      Placement.onStack ⟨0x10001, 0x10588⟩ 72 = .error (.stackTooSmall 1415 1416) ∧
      Region.Refuses ⟨0x10001, 0x10588⟩ 72 1416 := by
  have hlong : (0x10001 : UInt64) < 0x10589 := by decide
  have hshort : (0x10001 : UInt64) < 0x10588 := by decide
  rcases (record_placed hlong 72).2.1 (by decide) with ⟨p, hplaced, hfits, hwords, htakes⟩
  rcases (record_placed hshort 72).2.2 (by decide) with ⟨hrefused, hrefuses⟩
  have hrecord : p.record = 0x10500 := hwords.record.symm
  have htop : p.usable.top = 0x104c0 := hwords.gap.2.symm
  have hbottom : p.usable.bottom = 0x10001 := hfits.usableBottom
  rcases p with ⟨record, usableBottom, usableTop⟩
  cases hrecord
  cases htop
  cases hbottom
  exact ⟨hlong, hplaced, htakes, hshort, hrefused, hrefuses⟩

end Fibers
