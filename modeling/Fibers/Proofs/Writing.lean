import Fibers.Proofs.Abandon.Sweep
import Fibers.Proofs.Reach
import Mathlib.Logic.Function.Iterate

/-!
# Code that only writes

Some code does nothing but write to the log and work on cells.  What it makes of the world can be
told without the machine, and it is done with in one go: neither control nor anything that the code
or others own is touched.
-/

namespace Fibers

/-! ## What is written -/

mutual

/-- Whether an operation writes to the log and to cells, and does nothing else. -/
def Op.isWriting : Op -> Bool
  | .say _ | .whereAmI | .setCell _ _ | .addCell _ _ | .printCell _ | .compareHosts _ _
  | .checkAffinity _ _ | .currentHost | .defaultAffinity | .describeStacks _ => true
  | .ifCell _ _ yes no => Op.allWriting yes && Op.allWriting no
  | .scope ops | .rounds _ ops | .attempt _ ops => Op.allWriting ops
  | _ => false

def Op.allWriting : List Op -> Bool
  | [] => true
  | op :: rest => op.isWriting && Op.allWriting rest

end

section

variable (label : String) (kind : StackKind)

mutual

/-- What an operation writes, as a part of code with this label on a stack of this kind. -/
def Op.write : Op -> World -> World
  | .say message, w => w.note label (.said message)
  | .whereAmI, w => w.note label (.place kind)
  | .setCell cell source, w => w.setCell cell (w.read source)
  | .addCell cell source, w => w.setCell cell (w.cell cell + w.read source)
  | .printCell cell, w => w.note label (.cell cell (w.cell cell))
  | .compareHosts a b, w => w.note label (.comparedHosts (w.hosts.find a) (w.hosts.find b))
  | .checkAffinity binding host, w =>
      let binding := binding.elim Affinity.unbound fun name => .bound (w.hosts.find name)
      w.note label (.permission binding (w.hosts.find host))
  | .currentHost, w => w.note label (.currentHost w.hosts.self)
  | .defaultAffinity, w => w.note label (.defaultAffinity default)
  | .describeStacks settings, w => w.note label (.stackSettings settings)
  | .ifCell cell atLeast yes no, w =>
      if atLeast ≤ (w.cell cell).toNat then Op.writeAll yes w else Op.writeAll no w
  | .scope ops, w | .attempt _ ops, w => Op.writeAll ops w
  | .rounds count ops, w => (Op.writeAll ops)^[count] w
  | _, w => w

def Op.writeAll : List Op -> World -> World
  | [], w => w
  | op :: rest, w => Op.writeAll rest (op.write w)

end

end

/-! ## What is left alone -/

/-- A world whose cells and log may have changed. -/
def World.Written (w w' : World) : Prop := w' = { w with cells := w'.cells, log := w'.log }

namespace World.Written

variable {w w' w'' : World}

theorem refl (w : World) : w.Written w := rfl

theorem trans (h : w.Written w') (h' : w'.Written w'') : w.Written w'' := by
  rw [h', h]
  rfl

theorem report (w : World) (e : LogEntry) : w.Written (w.report e) := rfl

theorem note (w : World) (label : String) (n : Note) : w.Written (w.note label n) := rfl

theorem setCell (w : World) (name : String) (value : UInt64) : w.Written (w.setCell name value) :=
  rfl

theorem kindOf (h : w.Written w') (c : ContextId) : w'.kindOf c = w.kindOf c := by
  rw [h]
  rfl

theorem globals (h : w.Written w') : w'.globals = w.globals := by rw [h]

theorem hosts (h : w.Written w') : w'.hosts = w.hosts := by rw [h]

theorem guards (h : w.Written w') : w'.liveGuards = w.liveGuards := by rw [h]

theorem lent (h : w.Written w') : w'.liveStacks = w.liveStacks := by rw [h]

end World.Written

section

variable (label : String) (kind : StackKind)

mutual

theorem Op.written_write : forall (op : Op) (w : World), w.Written (op.write label kind w)
  | .ifCell cell atLeast yes no, w => by
      rw [Op.write]
      split
      · exact Op.written_writeAll yes w
      · exact Op.written_writeAll no w
  | .scope ops, w | .attempt _ ops, w => Op.written_writeAll ops w
  | .rounds count ops, w => by
      rw [Op.write]
      induction count generalizing w with
      | zero => exact .refl w
      | succ count ih => exact (Op.written_writeAll ops w).trans (ih _)
  | .say _, w | .whereAmI, w | .setCell _ _, w | .addCell _ _, w | .printCell _, w
  | .compareHosts _ _, w | .checkAffinity _ _, w | .currentHost, w | .defaultAffinity, w
  | .describeStacks _, w | .create _ _ _ _, w | .resume _, w | .resumeWith _ _ _ _, w | .ask _ _, w
  | .drop _, w | .move _ _, w | .isEmpty _, w | .display _, w | .debug _, w | .compare _ _, w
  | .collect _, w | .guard _ _, w | .whileLive _ _ _, w | .leaveLoop, w | .giveBack _, w
  | .ifEmpty _ _ _, w | .panic _, w => rfl

theorem Op.written_writeAll :
    forall (ops : List Op) (w : World), w.Written (Op.writeAll label kind ops w)
  | [], w => .refl w
  | op :: rest, w => (Op.written_write op w).trans (Op.written_writeAll rest _)

end

end

/-! ## What is told -/

/--
The second world has told the same as the first one, whose log has no trace.  What else they are
like does not count.
-/
structure World.Tells (v w : World) : Prop where
  hosts : w.hosts = v.hosts
  cells : w.cells = v.cells
  guards : w.liveGuards = v.liveGuards
  lent : w.liveStacks = v.liveStacks
  log : w.untraced = v.log

namespace World.Tells

variable {v w : World}

theorem note (h : v.Tells w) (label : String) (n : Note) :
    (v.note label n).Tells (w.note label n) where
  hosts := h.hosts
  cells := h.cells
  guards := h.guards
  lent := h.lent
  log := by simp [World.note, World.report, World.untraced, LogEntry.isTrace, <- h.log]

theorem trace (h : v.Tells w) (e : TraceEvent) : v.Tells (w.trace e) where
  hosts := h.hosts
  cells := h.cells
  guards := h.guards
  lent := h.lent
  log := by simpa [World.trace, World.report, World.untraced, LogEntry.isTrace] using h.log

theorem cell (h : v.Tells w) (name : String) : w.cell name = v.cell name := by
  rw [World.cell, World.cell, h.cells]

theorem read (h : v.Tells w) (source : CellSource) : w.read source = v.read source := by
  cases source with
  | number n => rfl
  | cell name => exact h.cell name

theorem setCell (h : v.Tells w) (name : String) (value : UInt64) :
    (v.setCell name value).Tells (w.setCell name value) where
  hosts := h.hosts
  cells := by rw [World.setCell, World.setCell, h.cells]
  guards := h.guards
  lent := h.lent
  log := h.log

end World.Tells

section

variable {label : String} {kind : StackKind}

mutual

/-- The same is written where the same has been told. -/
theorem Op.tells_write : forall (op : Op) {v w : World}, v.Tells w ->
    (op.write label kind v).Tells (op.write label kind w)
  | .setCell cell source, v, w, h => by
      simp only [Op.write, h.read]
      exact h.setCell _ _
  | .addCell cell source, v, w, h => by
      simp only [Op.write, h.read, h.cell]
      exact h.setCell _ _
  | .printCell cell, v, w, h => by
      simp only [Op.write, h.cell]
      exact h.note _ _
  | .compareHosts _ _, v, w, h | .checkAffinity _ _, v, w, h | .currentHost, v, w, h => by
      simp only [Op.write, h.hosts]
      exact h.note _ _
  | .say _, _, _, h | .whereAmI, _, _, h | .defaultAffinity, _, _, h
  | .describeStacks _, _, _, h => h.note _ _
  | .ifCell cell atLeast yes no, v, w, h => by
      simp only [Op.write, h.cell]
      split
      · exact Op.tells_writeAll yes h
      · exact Op.tells_writeAll no h
  | .scope ops, _, _, h | .attempt _ ops, _, _, h => Op.tells_writeAll ops h
  | .rounds count ops, v, w, h => by
      simp only [Op.write]
      induction count generalizing v w with
      | zero => exact h
      | succ count ih => exact ih _ _ (Op.tells_writeAll ops h)
  | .create _ _ _ _, _, _, h | .resume _, _, _, h | .resumeWith _ _ _ _, _, _, h | .ask _ _, _, _, h
  | .drop _, _, _, h | .move _ _, _, _, h | .isEmpty _, _, _, h | .display _, _, _, h
  | .debug _, _, _, h | .compare _ _, _, _, h | .collect _, _, _, h | .guard _ _, _, _, h
  | .whileLive _ _ _, _, _, h | .leaveLoop, _, _, h | .giveBack _, _, _, h
  | .ifEmpty _ _ _, _, _, h | .panic _, _, _, h => h

theorem Op.tells_writeAll : forall (ops : List Op) {v w : World}, v.Tells w ->
    (Op.writeAll label kind ops v).Tells (Op.writeAll label kind ops w)
  | [], _, _, h => h
  | op :: rest, _, _, h => Op.tells_writeAll rest (Op.tells_write op h)

end

end

/-! ## Runs of such code -/

namespace State

variable {label : String} {kind : StackKind} {role : Role} {below : List Frame}

/-- The run of some code, of which operations are left in the innermost block. -/
def doing (s : State) (w : World) (label : String) (role : Role) (block : BlockKind)
    (code : List Op) (entries : List Entry) (outer : List Block) (below : List Frame) : Config :=
  s.go w (.code ⟨label, role, ⟨block, code, entries⟩ :: outer, .onward⟩ :: below)

/-- A block that has declared nothing is closed at its end, and the code around it goes on. -/
theorem doing_close (s : State) (w : World) {block : BlockKind}
    (hblock : block = .scope ∨ (exists swallow, block = .attempt swallow) ∨
      exists code, block = .rounds 0 code)
    (outer : Block) (rest : List Block) :
    (s.doing w label role block [] [] (outer :: rest) below).ComesTo
      (s.go w (.code ⟨label, role, outer :: rest, .onward⟩ :: below)) := by
  refine ⟨1, ?_⟩
  rcases hblock with rfl | ⟨swallow, rfl⟩ | ⟨code, rfl⟩ <;> cases role <;> rfl

mutual

/-- An operation that only writes is done with, wherever its code is run. -/
theorem writes_op (s : State) : forall (op : Op), op.isWriting = true ->
    forall (w : World) (block : BlockKind) (rest : List Op) (entries : List Entry)
      (outer : List Block), w.kindOf s.running = kind ->
      (s.doing w label role block (op :: rest) entries outer below).ComesTo
        (s.doing (op.write label kind w) label role block rest entries outer below)
  | .say _, _, _, _, _, _, _, _ | .setCell _ _, _, _, _, _, _, _, _ | .addCell _ _, _, _, _, _, _, _, _
  | .printCell _, _, _, _, _, _, _, _ | .compareHosts _ _, _, _, _, _, _, _, _
  | .checkAffinity _ _, _, _, _, _, _, _, _ | .currentHost, _, _, _, _, _, _, _
  | .defaultAffinity, _, _, _, _, _, _, _ | .describeStacks _, _, _, _, _, _, _, _ => ⟨1, rfl⟩
  | .whereAmI, _, w, block, rest, entries, outer, hkind => by
      subst hkind
      exact ⟨1, rfl⟩
  | .ifCell cell atLeast yes no, h, w, block, rest, entries, outer, hkind => by
      simp only [Op.isWriting, Bool.and_eq_true] at h
      have hstep : Config.after 1
          (s.doing w label role block (.ifCell cell atLeast yes no :: rest) entries outer below) =
          s.doing w label role block
            ((if atLeast ≤ (w.cell cell).toNat then yes else no) ++ rest) entries outer below := rfl
      refine Config.ComesTo.trans ⟨1, hstep⟩ ?_
      rw [Op.write]
      split
      · exact writes_all s yes h.1 w block rest entries outer hkind
      · exact writes_all s no h.2 w block rest entries outer hkind
  | .scope ops, h, w, block, rest, entries, outer, hkind => by
      have hinside := writes_all s ops h w .scope [] [] (⟨block, rest, entries⟩ :: outer) hkind
      rw [List.append_nil] at hinside
      exact Config.ComesTo.trans ⟨1, rfl⟩ (hinside.trans (s.doing_close _ (Or.inl rfl) _ _))
  | .attempt swallow ops, h, w, block, rest, entries, outer, hkind => by
      have hinside := writes_all s ops h w (.attempt swallow) [] []
        (⟨block, rest, entries⟩ :: outer) hkind
      rw [List.append_nil] at hinside
      exact Config.ComesTo.trans ⟨1, rfl⟩
        (hinside.trans (s.doing_close _ (Or.inr (Or.inl ⟨swallow, rfl⟩)) _ _))
  | .rounds count ops, h, w, block, rest, entries, outer, hkind => by
      refine Config.ComesTo.trans ⟨1, rfl⟩ ?_
      rw [Op.write]
      change (s.doing w label role (.rounds count ops) [] [] (⟨block, rest, entries⟩ :: outer)
        below).ComesTo _
      induction count generalizing w with
      | zero => exact s.doing_close _ (Or.inr (Or.inr ⟨ops, rfl⟩)) _ _
      | succ count ih =>
          have hround := writes_all s ops h w (.rounds count ops) [] []
            (⟨block, rest, entries⟩ :: outer) hkind
          rw [List.append_nil] at hround
          have hkept := (Op.written_writeAll label kind ops w).kindOf s.running
          refine Config.ComesTo.trans ⟨1, ?_⟩ (hround.trans (ih h _ (by rw [hkept, hkind])))
          cases role <;> rfl

/-- Code that only writes is done with, wherever it is run. -/
theorem writes_all (s : State) : forall (ops : List Op), Op.allWriting ops = true ->
    forall (w : World) (block : BlockKind) (rest : List Op) (entries : List Entry)
      (outer : List Block), w.kindOf s.running = kind ->
      (s.doing w label role block (ops ++ rest) entries outer below).ComesTo
        (s.doing (Op.writeAll label kind ops w) label role block rest entries outer below)
  | [], _, _, _, _, _, _, _ => .refl _
  | op :: ops, h, w, block, rest, entries, outer, hkind => by
      simp only [Op.allWriting, Bool.and_eq_true] at h
      have hkept := (Op.written_write label kind op w).kindOf s.running
      exact (writes_op s op h.1 w block (ops ++ rest) entries outer hkind).trans
        (writes_all s ops h.2 _ block rest entries outer (by rw [hkept, hkind]))

end

end State

end Fibers
