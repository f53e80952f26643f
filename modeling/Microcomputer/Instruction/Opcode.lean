import Microcomputer.Instruction.Basic

/-!
Opcodes. The two high bits of an opcode count the operand bytes after it. One opcode, the one that prints
a range of cells, takes a second operand that its bits do not count.

`form?` is the table of known opcodes: for each, how the two bytes after it are read.
-/

namespace Microcomputer

/-- How the two bytes after an opcode are read. -/
inductive Form where
  | bare (i : Instruction Register)
  | register (build : Register → Instruction Register)
  | registerAndByte (build : Register → UInt8 → Instruction Register)
  | twoRegisters (build : Register → Register → Instruction Register)

namespace Opcode

def printText : UInt8 := 0x49

def operandCount (op : UInt8) : Nat := op.toNat / 64

/-- Encoded length in bytes, the opcode included. -/
def length (op : UInt8) : Nat := if op = printText then 3 else 1 + operandCount op

def ofCondition : Condition → UInt8
  | .always => 0x54
  | .equal => 0x55
  | .notEqual => 0x56
  | .greater => 0x57
  | .less => 0x58
  | .lessOrEqual => 0x59
  | .greaterOrEqual => 0x5A

def ofAluOp : AluOp → UInt8
  | .inc => 0x65
  | .dec => 0x66
  | .not => 0x69
  | .add => 0xA0
  | .sub => 0xA1
  | .mul => 0xA2
  | .div => 0xA3
  | .mod => 0xA4
  | .cmp => 0xA7
  | .and => 0xA8
  | .or => 0xAA
  | .xor => 0xAB
  | .shl => 0xAC
  | .shr => 0xAD

/-- A unary operation has the first register as its unread operand. -/
def unary (op : AluOp) : Form := .register fun r => .alu op r .first
def binary (op : AluOp) : Form := .twoRegisters (.alu op)
def jump (c : Condition) : Form := .register (.jump c)

def form? (op : UInt8) : Option Form :=
  match op.toNat with
  | 0x00 => some (.bare .nop)
  | 0x01 => some (.bare .halt)
  | 0x11 => some (.bare .ret)
  | 0x13 => some (.bare .interruptReturn)
  | 0x45 => some (.register .push)
  | 0x46 => some (.register .pop)
  | 0x47 => some (.register .printNumber)
  | 0x48 => some (.register .printChar)
  | 0x49 => some (.twoRegisters .printText)
  | 0x50 => some (.register .call)
  | 0x52 => some (.register .interrupt)
  | 0x54 => some (jump .always)
  | 0x55 => some (jump .equal)
  | 0x56 => some (jump .notEqual)
  | 0x57 => some (jump .greater)
  | 0x58 => some (jump .less)
  | 0x59 => some (jump .lessOrEqual)
  | 0x5A => some (jump .greaterOrEqual)
  | 0x65 => some (unary .inc)
  | 0x66 => some (unary .dec)
  | 0x69 => some (unary .not)
  | 0x82 => some (.registerAndByte .loadImmediate)
  | 0x83 => some (.twoRegisters .load)
  | 0x84 => some (.twoRegisters .store)
  | 0xA0 => some (binary .add)
  | 0xA1 => some (binary .sub)
  | 0xA2 => some (binary .mul)
  | 0xA3 => some (binary .div)
  | 0xA4 => some (binary .mod)
  | 0xA6 => some (.registerAndByte .addImmediate)
  | 0xA7 => some (binary .cmp)
  | 0xA8 => some (binary .and)
  | 0xAA => some (binary .or)
  | 0xAB => some (binary .xor)
  | 0xAC => some (binary .shl)
  | 0xAD => some (binary .shr)
  | _ => none

end Opcode

namespace Instruction

variable {ρ : Type}

def opcode : Instruction ρ → UInt8
  | nop => 0x00
  | halt => 0x01
  | loadImmediate .. => 0x82
  | load .. => 0x83
  | store .. => 0x84
  | alu op _ _ => Opcode.ofAluOp op
  | addImmediate .. => 0xA6
  | push _ => 0x45
  | pop _ => 0x46
  | call _ => 0x50
  | ret => 0x11
  | jump c _ => Opcode.ofCondition c
  | interrupt _ => 0x52
  | interruptReturn => 0x13
  | printNumber _ => 0x47
  | printChar _ => 0x48
  | printText .. => Opcode.printText

/-- Encoded length in bytes, the opcode included. -/
def length (i : Instruction ρ) : Nat := Opcode.length i.opcode

theorem opcode_map {σ : Type} (f : ρ → σ) (i : Instruction ρ) : (i.map f).opcode = i.opcode := by
  cases i <;> rfl

@[simp] theorem length_map {σ : Type} (f : ρ → σ) (i : Instruction ρ) :
    (i.map f).length = i.length := by
  simp [length, opcode_map]

/-- An instruction takes one to three bytes. -/
theorem length_bounds (i : Instruction ρ) : 1 ≤ i.length ∧ i.length ≤ 3 := by
  cases i with
  | alu op _ _ => cases op <;> (simp only [length, opcode]; decide)
  | jump c _ => cases c <;> (simp only [length, opcode]; decide)
  | _ => simp only [length, opcode]; decide

end Instruction

end Microcomputer
