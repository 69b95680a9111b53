import Fibers.Main
import Fibers.Proofs.Holdings
import Fibers.Proofs.Layout
import Fibers.Proofs.Discipline
import Fibers.Proofs.Globals
import Fibers.Proofs.Turn.Basic
import Fibers.Proofs.Turn.Code
import Fibers.Proofs.Turn.Block
import Fibers.Proofs.Turn.Drop
import Fibers.Proofs.Turn.Step
import Fibers.Proofs.Registry
import Fibers.Proofs.Contexts
import Fibers.Proofs.Housing
import Fibers.Proofs.Reach
import Fibers.Proofs.Soundness
import Fibers.Proofs.Moves
import Fibers.Proofs.Calls
import Fibers.Proofs.Upkeep
import Fibers.Proofs.Ownership
import Fibers.Proofs.Accounts
import Fibers.Proofs.Forest
import Fibers.Proofs.Boundary
import Fibers.Proofs.Abandon.Log
import Fibers.Proofs.Abandon.Run
import Fibers.Proofs.Protocol
import Fibers.Proofs.Shifts
import Fibers.Proofs.Stacks
import Fibers.Proofs.Giveback
import Fibers.Proofs.Delivery
import Fibers.Proofs.Alike.Basic
import Fibers.Proofs.Alike.Switch
import Fibers.Proofs.Alike.Code
import Fibers.Proofs.Alike.Step
import Fibers.Proofs.Probe.Bounce
import Fibers.Proofs.Probe.Insertion
import Fibers.Proofs.Probe.Transparent
import Fibers.Proofs.Weight.Basic
import Fibers.Proofs.Weight.Code
import Fibers.Proofs.Weight.Step
import Fibers.Proofs.Weight.Whole
import Fibers.Proofs.Termination
import Fibers.Proofs.Affinity
import Fibers.Proofs.Locality.Code
import Fibers.Proofs.Locality.Step
import Fibers.Proofs.Locality.Run
import Fibers.Proofs.Refusal.Drop
import Fibers.Proofs.Refusal.Check
import Fibers.Proofs.Refusal.Return
import Fibers.Proofs.Panic.Settled
import Fibers.Proofs.Panic.Collapse
import Fibers.Proofs.Forsaken
import Fibers.Proofs.Relay
import Fibers.Proofs.Writing
import Fibers.Proofs.Dialogue
import Fibers.Proofs.Closures.Keeping
import Fibers.Proofs.Closures.Occasions
import Fibers.Proofs.Closures.Once
import Fibers.Proofs.Collections
import Fibers.Proofs.Kinds
import Fibers.Proofs.Trace.Lives
import Fibers.Proofs.Build.Clean
import Fibers.Proofs.Escape
import Fibers.Proofs.Hosts
import Fibers.Proofs.Placement
import Fibers.Proofs.Generator.Report
