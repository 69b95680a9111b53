import Fibers.Machine.Switch

/-!
# Unwinding

An unwind passes down a stack frame by frame.  Running code closes its blocks, innermost first,
dropping what they declare.  A panic ends at a block that attempts its code; a forced unwind passes
through and reaches the lower end of what runs on its stack: the function that was put on top, which
hands it on to the code below, or the body of the fiber, after which control goes to the context
that asked for it.

An unwind that escapes from something dropped by an earlier one, or from the end of a stack that is
already on its way out, aborts the run.
-/

namespace Fibers

namespace State

/-- Unwinds running code by one step: a result that is on its way, then block after block. -/
def unwindCode (s : State) (cause : Unwind) (a : Activation) (below : List Frame) : Config :=
  match a.flow.result.entries, a.blocks with
  | e :: es, _ => s.raise s.world cause (e :: es) (.code { a with flow := .onward } :: below)
  | [], [] => s.raise s.world cause [] below
  | [], b :: outer =>
      match b.entries with
      | e :: es =>
          let closed : Block := { b with code := [], entries := [] }
          s.raise s.world cause (e :: es)
            (.code { a with flow := .onward, blocks := closed :: outer } :: below)
      | [] =>
          let after : Activation := { a with flow := .onward, blocks := outer }
          match b.kind, cause with
          | .attempt _, .panic payload =>
              s.go (s.world.note a.label (.caught payload.message)) (.code after :: below)
          | .attempt true, .forced _ =>
              s.go (s.world.note a.label .swallowed) (.code after :: below)
          | .attempt false, .forced _ =>
              s.raise (s.world.note a.label .rethrown) cause [] (.code after :: below)
          | _, _ => s.raise s.world cause [] (.code after :: below)

/-- Takes an unwind into the frames below whatever it has left. -/
def unwindInto (s : State) (cause : Unwind) (stack : List Frame) : Config :=
  match stack with
  | .code a :: below => s.unwindCode cause a below
  | .calling (.failBuild _) a :: below =>
      s.raise (s.world.trace .spanLeft) cause [] (.code a :: below)
  | .calling (.refuse refusal _ _) a :: below =>
      s.raise s.world cause refusal.handle.entries (.code a :: below)
  | .calling (.store pending _) a :: below =>
      s.raise s.world cause (pending.flatMap fun entry => entry.2.entries) (.code a :: below)
  | .discarding entries none :: below => s.raise s.world cause entries below
  | .discarding _ (some _) :: _ => .halted (.aborted .doubleUnwind) s.world
  | .onTop _ :: below =>
      match cause with
      | .panic payload => s.breach (.onTopPanicked payload)
      | .forced requester =>
          .active { s with stack := below, control := .landed requester (.message .eviction) }
  | .base (.busy lease) :: below =>
      match cause with
      | .panic payload => s.breach (.bodyPanicked payload)
      | .forced requester => s.go s.world (.base (.leaving lease (.unwound requester)) :: below)
  | .base (.leaving _ _) :: _ => .halted (.aborted .doubleUnwind) s.world
  | .root _ :: below =>
      match cause with
      | .panic payload =>
          s.go s.world (.root (.draining drainRounds [] true (some payload)) :: below)
      | .forced _ => s.stuck
  | _ => s.stuck

end State

end Fibers
