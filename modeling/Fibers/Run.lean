import Fibers.Log.Row
import Fibers.Machine.Step

/-!
# Runs

A run starts with the main program on the stack of its own thread, and is followed step by step to
its end.
-/

namespace Fibers

/-- The context of the main program.  Its stack was there before any that is handed out. -/
def mainContext : ContextId := 0

namespace Program

def start (p : Program) : State where
  world := { hosts := HostTable.ofDeclared p.hosts }
  running := mainContext
  stack := [.code (Activation.ofCode .program "main" p.main), .root .program]
  contexts := [(mainContext, [])]
  control := .run

end Program

namespace Config

/-- The configuration after at most so many steps. -/
def after : Nat -> Config -> Config
  | 0, c => c
  | _ + 1, halted outcome w => halted outcome w
  | n + 1, active s => after n s.step

end Config

/-- What is left of a run: how it ended, its log from the first entry on, and the counts. -/
structure Answer where
  hosts : HostTable
  outcome : Outcome
  log : List LogEntry
  liveGuards : Int
  liveStacks : Int

namespace Answer

def ofWorld (outcome : Outcome) (w : World) : Answer where
  hosts := w.hosts
  outcome := outcome
  log := w.log.reverse
  liveGuards := w.liveGuards
  liveStacks := w.liveStacks

/-- The log without its trace. -/
def untraced (a : Answer) : List LogEntry := a.log.filter (fun e => ¬ e.isTrace)

/-- The written log, with its trace or without. -/
def rows (a : Answer) (traced : Bool) : List (List Field) :=
  (if traced then a.log else a.untraced).map (LogEntry.row a.hosts)

end Answer

def Program.run (p : Program) : Answer :=
  match Config.after p.stepBound (.active p.start) with
  | .halted outcome w => .ofWorld outcome w
  | .active s => .ofWorld .stuck s.world

end Fibers
