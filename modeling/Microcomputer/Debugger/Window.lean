import Microcomputer.Listing

/-!
The disassembly around the program counter. Memory is decoded in one sweep from address 0. An entry that
would run across the program counter is followed by the program counter all the same, so the current
instruction always has an entry of its own. The window keeps it in view, near the middle where it can.
-/

namespace Microcomputer

structure WindowLine where
  address : UInt8
  text : String
  isCurrent : Bool
  deriving DecidableEq, Repr

namespace Memory

/-- The address after an entry: never past the program counter at one bound. -/
def nextEntry (pc a size : Nat) : Nat := if a < pc ∧ pc < a + size then pc else a + size

theorem lt_nextEntry (pc a size : Nat) (h : 1 ≤ size) : a < nextEntry pc a size := by
  unfold nextEntry
  split <;> omega

/-- The entries from an address to the end of memory. -/
def sweep (m : Memory) (pc a : Nat) : List WindowLine :=
  if a < memorySize then
    let entry := m.disassembleAt (UInt8.ofNat a)
    ⟨UInt8.ofNat a, entry.1, a = pc⟩ :: sweep m pc (nextEntry pc a entry.2)
  else []
termination_by memorySize - a
decreasing_by
  have := lt_nextEntry pc a (m.disassembleAt (UInt8.ofNat a)).2
    (disassembleAt_size m (UInt8.ofNat a)).1
  omega

/-- At most `count` entries around the program counter. -/
def disassemblyWindow (m : Memory) (pc : UInt8) (count : Nat) : List WindowLine :=
  let entries := m.sweep pc.toNat 0
  let current := (entries.findIdx? (·.isCurrent)).getD 0
  (entries.drop (current - count / 2)).take count

end Memory

end Microcomputer
