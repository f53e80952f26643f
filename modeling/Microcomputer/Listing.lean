import Microcomputer.Fetch
import Microcomputer.Instruction.Assembly

/-!
Disassembly. A byte that does not decode is listed as data and takes one cell. A listing runs through an
image from its first byte to its last; the bytes of an instruction that the image cuts off are listed as far
as they go, while its operands are read as the zeros of an empty memory.
-/

namespace Microcomputer

/-- The text of the instruction at an address and the number of bytes it takes. -/
def Memory.disassembleAt (m : Memory) (a : UInt8) : String × Nat :=
  match m.decodeAt a with
  | .ok i => (i.raw.assembly, i.length)
  | .error _ => ("DB " ++ Text.address (m.read a), 1)

theorem Memory.disassembleAt_size (m : Memory) (a : UInt8) :
    1 ≤ (m.disassembleAt a).2 ∧ (m.disassembleAt a).2 ≤ 3 := by
  unfold disassembleAt
  split
  · exact Instruction.length_bounds _
  · simp

namespace Listing

/-- One line of a listing: an address, what stands there, and its bytes. -/
structure Entry where
  address : UInt8
  text : String
  bytes : List UInt8
  deriving DecidableEq, Repr

/-- The entries from an address on, for the bytes of the image that are left there. -/
def entriesFrom (m : Memory) (a : UInt8) (left : List UInt8) : List Entry :=
  match left with
  | [] => []
  | byte :: rest =>
    let (text, size) := m.disassembleAt a
    ⟨a, text, byte :: rest.take (size - 1)⟩ ::
      entriesFrom m (a + UInt8.ofNat size) (rest.drop (size - 1))
termination_by left.length

/-- The part of an image that has an address. -/
def addressed (image : List UInt8) : List UInt8 := image.take memorySize

def entries (image : List UInt8) : List Entry :=
  entriesFrom (Memory.zero.writeAll 0 (addressed image)) 0 (addressed image)

def Entry.line (e : Entry) : String :=
  Text.hex e.address ++ ": " ++ Text.padRight Instruction.assemblyWidth e.text ++ " ; " ++
    " ".intercalate (e.bytes.map Text.binary) ++ "\n"

def heading : String := "; LS-8 Disassembly\n; -----------------\n\n"

/-- The listing of an image as one text. -/
def text (image : List UInt8) : String := heading ++ String.join ((entries image).map Entry.line)

end Listing

end Microcomputer
