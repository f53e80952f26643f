import Microcomputer.Instruction.Encoding
import Microcomputer.Memory

/-!
Fetching: the instruction whose bytes start at an address of memory. Operands past the last cell come from
the first ones.
-/

namespace Microcomputer

def Memory.decodeAt (m : Memory) (a : UInt8) : Except DecodeError (Instruction Register) :=
  Instruction.decode (m.read a) (m.read (a + 1)) (m.read (a + 2))

end Microcomputer
