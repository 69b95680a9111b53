import Fibers.Stack.Placement

/-!
# Where stacks come from

An allocator asks for a region of some size, or fails with a cause of its own; a fiber that cannot be
built reports either that cause or that its stack was too small.  Where in memory a stack is put is
the allocator's own choice.  The only thing known of it is that the stack is apart from all that are
in use, so what was given back may be handed out again.
-/

namespace Fibers

/-! ## Memory -/

/-- The bytes of a page. -/
def pageSize : Nat := 4096

/-- One more than the greatest machine word. -/
def wordLimit : Nat := UInt64.size

/--
The memory the system has for programs, in whole pages: 32 GiB without what it keeps for itself.
-/
def systemMemory : Nat := 8235297 * pageSize

/-- Stacks are numbered in the order in which they are handed out, and `next` is the next number. -/
structure Memory where
  next : Nat := 1
deriving Inhabited

/--
A choice of places for stacks: the bottom of the next one, by its number, its size, and the regions
in use.  The first page is never handed out.
-/
structure Site where
  bottom (number size : Nat) (inUse : List Region) : Nat
  page (number size : Nat) (inUse : List Region) : pageSize ≤ bottom number size inUse
  apart (number size : Nat) (inUse : List Region) (r : Region) (hr : r ∈ inUse) :
    r.Apart ⟨bottom number size inUse, bottom number size inUse + size⟩

/-- The greatest of some addresses, or the first page. -/
def highest (tops : List Nat) : Nat := tops.foldr max pageSize

theorem pageSize_le_highest (tops : List Nat) : pageSize ≤ highest tops := by
  induction tops with
  | nil => exact Nat.le_refl _
  | cons top rest ih => exact Nat.le_trans ih (Nat.le_max_right _ _)

theorem le_highest {tops : List Nat} {top : Nat} (htop : top ∈ tops) : top ≤ highest tops := by
  induction tops with
  | nil => cases htop
  | cons first rest ih =>
      rcases List.mem_cons.mp htop with rfl | hrest
      · exact Nat.le_max_left _ _
      · exact Nat.le_trans (ih hrest) (Nat.le_max_right _ _)

/-- Right above some addresses, for a stack with a top that is a multiple of the page size. -/
def bottomAbove (tops : List Nat) (size : Nat) : Nat :=
  alignUp (highest tops + size) pageSize - size

theorem highest_le_bottomAbove (tops : List Nat) (size : Nat) :
    highest tops ≤ bottomAbove tops size := by
  have hpage : 0 < pageSize := by decide
  exact Nat.le_sub_of_add_le (le_alignUp hpage)

theorem pageSize_le_bottomAbove (tops : List Nat) (size : Nat) : pageSize ≤ bottomAbove tops size :=
  Nat.le_trans (pageSize_le_highest tops) (highest_le_bottomAbove tops size)

theorem apart_bottomAbove {inUse : List Region} {r : Region} (hr : r ∈ inUse) (size : Nat) :
    r.Apart ⟨bottomAbove (inUse.map Region.top) size,
      bottomAbove (inUse.map Region.top) size + size⟩ := by
  have htop : r.top ≤ highest (inUse.map Region.top) := le_highest (List.mem_map_of_mem hr)
  exact Region.apart_of_le (Nat.le_trans htop (highest_le_bottomAbove _ size))

namespace Site

/-- Right above everything that is in use, with a top that is a multiple of the page size. -/
def above : Site where
  bottom _ size inUse := bottomAbove (inUse.map Region.top) size
  page _ size inUse := pageSize_le_bottomAbove (inUse.map Region.top) size
  apart _ size _ _ hr := apart_bottomAbove hr size

instance : Inhabited Site := ⟨above⟩

/-- Hands out a region of exactly this size. -/
def reserve (site : Site) (m : Memory) (inUse : List Region) (size : Nat) : Region × Memory :=
  let bottom := site.bottom m.next size inUse
  (⟨bottom, bottom + size⟩, ⟨m.next + 1⟩)

end Site

/-- What is known of a stack that was handed out while some regions were in use. -/
structure Memory.Hands (m : Memory) (inUse : List Region) (stack : Region) (memory : Memory) :
    Prop where
  next : memory.next = m.next + 1
  page : pageSize ≤ stack.bottom
  apart : forall r, r ∈ inUse -> r.Apart stack

theorem Site.hands_reserve (site : Site) (m : Memory) (inUse : List Region) (size : Nat) :
    m.Hands inUse (site.reserve m inUse size).1 (site.reserve m inUse size).2 where
  next := rfl
  page := site.page m.next size inUse
  apart := site.apart m.next size inUse

theorem Site.size_reserve (site : Site) (m : Memory) (inUse : List Region) (size : Nat) :
    (site.reserve m inUse size).1.size = size :=
  Nat.add_sub_cancel_left _ _

/-! ## Allocators -/

/-- Fixed stacks from the operating system, with or without a guard page below them. -/
structure SystemStacks where
  size : Nat
  guarded : Bool
deriving DecidableEq

namespace SystemStacks

/-- The size of a stack for which none was asked. -/
def defaultSize : Nat := 1024 * 1024

/-- The least size that a stack is given. -/
def minimumSize : Nat := 2048

/-- What a fiber gets if nothing else is asked for: the default size and a guard page. -/
def standard : SystemStacks := ⟨defaultSize, true⟩

/-- The bytes a stack takes: at least the minimum, in whole pages. -/
def roundedSize (s : SystemStacks) : Nat :=
  (max s.size minimumSize - 1) / pageSize * pageSize + pageSize

/-- The bytes to ask the system for: those and the guard page. -/
def mappedSize (s : SystemStacks) : Nat := s.roundedSize + if s.guarded then pageSize else 0

def text (s : SystemStacks) : String :=
  "DefaultAllocator \x7b size: " ++ toString s.size ++
    ", protected: " ++ toString s.guarded ++ " \x7d"

end SystemStacks

/--
What a fiber's stack may come from.  The last three are a program's own allocators, with a label
each.
-/
inductive Allocator where
  | system (settings : SystemStacks) (site : Site := .above)
  /-- Hands out a region of exactly the given size, and counts what is given back. -/
  | heap (label : String) (size : Nat) (site : Site := .above)
  /-- Always fails, with this message. -/
  | failing (label message : String)
  /-- Always refuses, as if more than this maximum had been asked for. -/
  | exceeding (label : String) (maximum : Nat)
deriving Inhabited

def Allocator.label? : Allocator -> Option String
  | .system _ _ => none
  | .heap label _ _ | .failing label _ | .exceeding label _ => some label

/-! ## Handing out stacks -/

/--
Asks an allocator for a stack.  The system's stacks are limited twice: their size has to be a
machine word, and then the system must have memory for all of it.  Each stack is held against the
whole of that memory, whatever the others take, since a page takes memory only once it is used.
-/
def Allocator.supply (m : Memory) (inUse : List Region) :
    Allocator -> Except StackError (Region × Memory)
  | .system settings site =>
      if wordLimit ≤ settings.mappedSize then .error (.exceedsMaximum none)
      else if systemMemory < settings.mappedSize then .error .outOfMemory
      else .ok (site.reserve m inUse settings.roundedSize)
  | .heap _ size site => .ok (site.reserve m inUse size)
  | .failing _ message => .error (.failed message)
  | .exceeding _ maximum => .error (.exceedsMaximum (some maximum))

/-- Whichever allocator hands out a stack, it is apart from all that are in use. -/
theorem Allocator.supply_ok {a : Allocator} {m memory : Memory} {inUse : List Region}
    {stack : Region} (h : a.supply m inUse = .ok (stack, memory)) :
    m.Hands inUse stack memory := by
  have hreserved : exists (site : Site) (size : Nat), site.reserve m inUse size = (stack, memory) := by
    unfold supply at h
    split at h
    · split at h
      · cases h
      · split at h
        · cases h
        · exact ⟨_, _, Except.ok.inj h⟩
    · exact ⟨_, _, Except.ok.inj h⟩
    · cases h
    · cases h
  rcases hreserved with ⟨site, size, hreserve⟩
  have hhands := site.hands_reserve m inUse size
  rwa [hreserve] at hhands

end Fibers
