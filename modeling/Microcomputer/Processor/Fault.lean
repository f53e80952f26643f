import Microcomputer.Instruction.Encoding

/-!
Run states of the processor and the faults that end a run. Addresses and bytes in messages are hexadecimal,
a register operand is decimal.
-/

namespace Microcomputer

inductive RunState
  | running | halted | faulted
  deriving DecidableEq, Repr

def RunState.name : RunState → String
  | .running => "Running"
  | .halted => "Halted"
  | .faulted => "Faulted"

inductive Fault
  | notRunning (state : RunState)
  | invalidOpcode (address opcode : UInt8)
  | invalidRegister (address operand : UInt8)
  | divisionByZero (address : UInt8)
  | stackOverflow (sp : UInt8)
  | stackUnderflow (sp : UInt8)
  deriving DecidableEq, Repr

namespace Fault

/-- The fault of bytes at an address that do not decode. -/
def ofDecodeError (address : UInt8) : DecodeError → Fault
  | .invalidOpcode op => .invalidOpcode address op
  | .invalidRegister r => .invalidRegister address r

def message : Fault → String
  | notRunning state => "CPU not running: " ++ state.name
  | invalidOpcode address opcode =>
    "invalid opcode " ++ Text.address opcode ++ " at " ++ Text.address address
  | invalidRegister address operand =>
    "invalid register operand " ++ toString operand.toNat ++ " at " ++ Text.address address
  | divisionByZero address => "division by zero at " ++ Text.address address
  | stackOverflow sp => "stack overflow (SP=" ++ Text.address sp ++ ")"
  | stackUnderflow sp => "stack underflow (SP=" ++ Text.address sp ++ ")"

end Fault

end Microcomputer
