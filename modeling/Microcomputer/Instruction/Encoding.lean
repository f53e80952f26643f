import Microcomputer.Instruction.Opcode
import Microcomputer.Text.Byte

/-!
The encoded form of instructions. Decoding looks at an opcode and the two bytes after it and checks
register operands in order; bytes past the instruction never count.
-/

namespace Microcomputer

inductive DecodeError
  | invalidOpcode (opcode : UInt8)
  | invalidRegister (operand : UInt8)
  deriving DecidableEq, Repr

def DecodeError.message : DecodeError → String
  | .invalidOpcode op => "invalid opcode: " ++ Text.address op
  | .invalidRegister r => s!"invalid register operand: {r.toNat}"

namespace Register

def ofOperand (b : UInt8) : Except DecodeError Register :=
  match ofByte? b with
  | some r => .ok r
  | none => .error (.invalidRegister b)

end Register

def Form.read (a b : UInt8) : Form → Except DecodeError (Instruction Register)
  | .bare i => .ok i
  | .register build => do return build (← Register.ofOperand a)
  | .registerAndByte build => do return build (← Register.ofOperand a) b
  | .twoRegisters build => do
    let r ← Register.ofOperand a
    return build r (← Register.ofOperand b)

namespace Instruction

/-- The instruction whose bytes start with `op`, `a` and `b`. -/
def decode (op a b : UInt8) : Except DecodeError (Instruction Register) :=
  match Opcode.form? op with
  | some form => form.read a b
  | none => .error (.invalidOpcode op)

/-- Both operand bytes, zero where the instruction has none. -/
def operands : Instruction UInt8 → List UInt8
  | nop | halt | ret | interruptReturn => [0, 0]
  | loadImmediate r v | addImmediate r v => [r, v]
  | load r a => [r, a]
  | store a r => [a, r]
  | alu _ a b => [a, b]
  | push r | pop r | call r | jump _ r | interrupt r | printNumber r | printChar r => [r, 0]
  | printText a b => [a, b]

/-- The bytes of an instruction, as many as its opcode says. -/
def encode (i : Instruction UInt8) : List UInt8 := i.opcode :: i.operands.take (i.length - 1)

theorem length_encode (i : Instruction UInt8) : i.encode.length = i.length := by
  have h := i.length_bounds
  have : i.operands.length = 2 := by cases i <;> rfl
  simp only [encode, List.length_cons, List.length_take]
  omega

end Instruction

end Microcomputer
