/-!
# Hosts and affinity

A *host* is an identity under which switches are made: a thread has one, and further ones can be
drawn that belong to no thread.  A suspended context is *bound* to the host it was suspended on, or
not bound at all, and a checked switch is let through only from a host that the binding allows.

Identities come from one 64-bit counter.  The counter wraps, and the only identity it refuses to
hand out is zero.
-/

namespace Fibers

/-! ## Identities -/

/-- A host, by a number that is not zero. -/
structure Host where
  number : UInt64
  nonzero : number ≠ 0
deriving DecidableEq

instance : Inhabited Host := ⟨⟨1, by decide⟩⟩

namespace Host

def order (a b : Host) : Ordering := compare a.number b.number

/-- How much greater the number of `b` is, negative if it is less. -/
def distance (a b : Host) : Int := b.number.toNat - a.number.toNat

/-- The text of a host that has no other name. -/
def text (h : Host) : String := "host#" ++ toString h.number.toNat

end Host

/-! ## The counter and the threads -/

/-- Threads are told apart by number. -/
abbrev ThreadId := Nat

/-- The state that hosts are drawn from: the counter, and the threads that already have one. -/
structure HostLedger where
  next : UInt64 := 1
  threads : List (ThreadId × Host) := []

namespace HostLedger

/--
Draws a host that nobody has.  The counter moves on in any case, and at zero nothing is handed out.
-/
def draw (l : HostLedger) : Option Host × HostLedger :=
  let moved := { l with next := l.next + 1 }
  if h : l.next ≠ 0 then (some ⟨l.next, h⟩, moved) else (none, moved)

/--
The host of a thread: the one it has, or else a fresh one that is then kept.  A thread whose draw
failed still has none.
-/
def ofThread (l : HostLedger) (thread : ThreadId) : Option Host × HostLedger :=
  match l.threads.lookup thread with
  | some host => (some host, l)
  | none =>
      match l.draw with
      | (some host, moved) => (some host, { moved with threads := (thread, host) :: moved.threads })
      | (none, moved) => (none, moved)

end HostLedger

/-! ## Affinity -/

/-- The host that a suspended context may be resumed from, or any. -/
inductive Affinity where
  | unbound
  | bound (host : Host)
deriving DecidableEq, Inhabited

namespace Affinity

/-- A context that is not bound may be resumed from everywhere, a bound one from its host alone. -/
def allows : Affinity -> Host -> Bool
  | unbound, _ => true
  | bound host, asking => host = asking

def host? : Affinity -> Option Host
  | unbound => none
  | bound host => some host

theorem allows_iff {a : Affinity} {h : Host} :
    a.allows h = true ↔ forall b, a.host? = some b -> b = h := by
  cases a with
  | unbound => simp [allows, host?]
  | bound host => simp [allows, host?]

end Affinity

/-! ## Named hosts

A program calls its hosts by name.  `self` is the host of the thread that runs the program; every
other name stands for a drawn host or for that of another new thread.
-/

/-- How the host behind a name is obtained. -/
inductive HostSource where
  | drawn
  | newThread
deriving DecidableEq

/-- The names of hosts, the latest first. -/
structure HostTable where
  self : Host
  named : List (String × Host)
deriving Inhabited

namespace HostTable

/--
Obtains the declared hosts one after another, the threads among them being numbered as they come.
-/
def declare : HostLedger -> ThreadId -> List (String × HostSource) -> List (String × Host) ->
    List (String × Host)
  | _, _, [], named => named
  | ledger, thread, (name, source) :: rest, named =>
      let (host?, ledger) :=
        match source with
        | .drawn => ledger.draw
        | .newThread => ledger.ofThread (thread + 1)
      match host? with
      | some host => declare ledger (thread + 1) rest ((name, host) :: named)
      | none => declare ledger (thread + 1) rest named

/-- The table of a program that declares these hosts: its own thread comes first. -/
def ofDeclared (hosts : List (String × HostSource)) : HostTable :=
  match HostLedger.ofThread {} 0 with
  | (some self, ledger) => ⟨self, declare ledger 0 hosts [("self", self)]⟩
  | (none, _) => ⟨default, []⟩

/-- The host that a name stands for, the program's own one if the name is not declared. -/
def find (t : HostTable) (name : String) : Host := (t.named.lookup name).getD t.self

/-- The host that a switch is made from: the named one, or else the program's own. -/
def resolve (t : HostTable) : Option String -> Host
  | some name => t.find name
  | none => t.self

/-- The text of a host, by its name in the table. -/
def text (t : HostTable) (h : Host) : String :=
  match t.named.find? (fun entry => entry.2 = h) with
  | some (name, _) => "host#" ++ name
  | none => h.text

def affinityText (t : HostTable) : Affinity -> String
  | .unbound => "Unbound"
  | .bound host => "Bound(" ++ t.text host ++ ")"

end HostTable

end Fibers
