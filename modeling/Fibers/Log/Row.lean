import Fibers.Log

/-!
# The written form of the log

Each entry of the log is written as a row of fields.  Hosts are written by their names in the
program's table, addresses never: a star stands for each of them.
-/

namespace Fibers

inductive Field where
  | text (s : String)
  | number (n : Int)
  | truth (b : Bool)
  | absent
  /-- Named texts; one that is absent is left out altogether. -/
  | named (fields : List (String × Option String))

namespace Field

/-- A host, or the lack of one. -/
def ofHost? (hosts : HostTable) : Option Host -> Field
  | some host => text (hosts.text host)
  | none => absent

end Field

def orderText : Ordering -> String
  | .lt => "less"
  | .eq => "equal"
  | .gt => "greater"

/-! ## Notes -/

/-- A note as fields; the first names the operation. -/
def Note.fields (hosts : HostTable) : Note -> List Field
  | .buildFailed cause =>
      let failure := Failure.build cause
      [.text "build_error", .text cause.variant, .text (failure.text hosts),
        .truth (failure.debugText hosts = failure.text hosts), .truth failure.handle.isEmpty]
  | .resumed handle => [.text "resumed", .text (if handle.isEmpty then "empty" else "live")]
  | .refused r =>
      [.text "refused", .text ((Failure.refused r).text hosts), .ofHost? hosts r.binding.host?,
        .text (hosts.text r.host)]
  | .canResume answer => [.text "can_resume", .truth answer]
  | .canResumeAnywhere answer => [.text "can_resume_any", .truth answer]
  | .affinity answer => [.text "affinity", .ofHost? hosts answer.host?]
  | .stackKind answer => [.text "stack_kind", .text answer.text]
  | .isEmpty answer => [.text "is_empty", .truth answer]
  | .display handle => [.text "display", .text handle.text]
  | .debug handle => [.text "debug", .text handle.debugText]
  | .compared a b =>
      [.text "compare", .truth (a = b), .text (a.relation b).text, .truth (a.isConsistent b)]
  | .collected handles =>
      let ordered := Handle.orderedSet handles
      [.text "set", .number ordered.length, .number (Handle.distinctSet handles).length,
        match ordered.head? with
        | some first => .truth first.isEmpty
        | none => .absent]
  | .caught message => [.text "caught", .text message]
  | .rethrown => [.text "rethrow"]
  | .swallowed => [.text "swallowed"]
  | .said message => [.text "log", .text message]
  | .place kind => [.text "where", .text kind.text, .truth kind.canMove]
  | .cell name value => [.text "cell", .text name, .text (toString value.toNat)]
  | .comparedHosts a b =>
      [.text "host_compare", .truth (a = b), .text (orderText (a.order b)), .number (a.distance b),
        .number (if a = b then 1 else 2)]
  | .permission binding host =>
      [.text "permits", .text (hosts.affinityText binding), .truth (binding.allows host)]
  | .currentHost host => [.text "current_host", .text (hosts.text host), .text (hosts.text host)]
  | .defaultAffinity binding => [.text "affinity_default", .ofHost? hosts binding.host?]
  | .stackSettings settings =>
      [.text "allocator", .text (toString settings.size), .truth settings.guarded,
        .truth (SystemStacks.standard.size = SystemStacks.defaultSize),
        .truth SystemStacks.standard.guarded,
        .text settings.text]

/-! ## The trace -/

def maskedAddress : Option String := some "*"

/-- A step of the trace as fields: what happened, and to whom. -/
def TraceEvent.fields (hosts : HostTable) : TraceEvent -> List Field
  | .spanMade name => [.text "span", .text "create fiber", .named [("name", name)]]
  | .spanEntered => [.text "enter"]
  | .spanLeft => [.text "exit"]
  | .registering _ =>
      [.text "registering fiber stack", .named [("bottom", maskedAddress), ("top", maskedAddress)]]
  | .created _ => [.text "created fiber", .named [("fiber", maskedAddress)]]
  | .probed _ query =>
      [.text "probe", .named [("fiber", maskedAddress), ("query", some query.text)]]
  | .refusing host binding =>
      [.text "refusing resume from foreign host",
        .named [("host", some (hosts.text host)), ("affinity", some (hosts.affinityText binding))]]
  | .resuming _ host =>
      [.text "resume", .named [("to", maskedAddress), ("host", some (hosts.text host))]]
  | .resumingOnTop _ host =>
      [.text "resume with on-top function",
        .named [("to", maskedAddress), ("host", some (hosts.text host))]]
  | .dispatching name => [.text "dispatching fiber body", .named [("fiber", name)]]
  | .abandoned _ => [.text "unwinding abandoned fiber", .named [("fiber", maskedAddress)]]
  | .forcedUnwind _ => [.text "forced unwind", .named [("requester", maskedAddress)]]
  | .exiting name => [.text "fiber exiting", .named [("fiber", name)]]
  | .releasing name => [.text "releasing fiber stack", .named [("fiber", name)]]

/-! ## Entries -/

def LogEntry.row (hosts : HostTable) : LogEntry -> List Field
  | .noted label note => .text label :: note.fields hosts
  | .dropped guard kind => [.text "drop", .text guard, .text kind.text]
  | .allocated allocator kind => [.text "alloc", .text allocator, .text kind.text]
  | .deallocated allocator kind => [.text "dealloc", .text allocator, .text kind.text]
  | .ended => [.text "end"]
  | .traced event => .text "trace" :: event.fields hosts

end Fibers
