import Microcomputer.Arithmetic
import Microcomputer.Register

/-!
Instructions. The type of register operands is a parameter: a decoded instruction names registers, while
one that was read from a text may carry any byte there.
-/

namespace Microcomputer

inductive Condition
  | always | equal | notEqual | greater | less | lessOrEqual | greaterOrEqual
  deriving DecidableEq, Repr, Inhabited

namespace Condition

/-- Whether a jump under the condition is taken after a comparison left these flags. -/
def holds (c : Condition) (f : Flags) : Bool :=
  match c with
  | .always => true
  | .equal => f.equal
  | .notEqual => !f.equal
  | .greater => f.greater
  | .less => f.less
  | .lessOrEqual => f.less || f.equal
  | .greaterOrEqual => f.greater || f.equal

end Condition

inductive Instruction (ρ : Type) where
  | nop
  | halt
  | loadImmediate (target : ρ) (value : UInt8)
  /-- Copies the cell that `address` points at. -/
  | load (target address : ρ)
  /-- Writes the cell that `address` points at. -/
  | store (address source : ρ)
  /-- A unary operation carries a second operand too and ignores it. -/
  | alu (op : AluOp) (target source : ρ)
  | addImmediate (target : ρ) (value : UInt8)
  | push (source : ρ)
  | pop (target : ρ)
  | call (address : ρ)
  | ret
  | jump (condition : Condition) (address : ρ)
  /-- Raises the interrupt line that the register holds. -/
  | interrupt (line : ρ)
  | interruptReturn
  | printNumber (source : ρ)
  | printChar (source : ρ)
  /-- Prints the cells from the one address to the other, both included. -/
  | printText (first last : ρ)
  deriving DecidableEq, Repr

namespace Instruction

def map {ρ σ : Type} (f : ρ → σ) : Instruction ρ → Instruction σ
  | nop => nop
  | halt => halt
  | loadImmediate r v => loadImmediate (f r) v
  | load r a => load (f r) (f a)
  | store a r => store (f a) (f r)
  | alu op a b => alu op (f a) (f b)
  | addImmediate r v => addImmediate (f r) v
  | push r => push (f r)
  | pop r => pop (f r)
  | call r => call (f r)
  | ret => ret
  | jump c r => jump c (f r)
  | interrupt r => interrupt (f r)
  | interruptReturn => interruptReturn
  | printNumber r => printNumber (f r)
  | printChar r => printChar (f r)
  | printText a b => printText (f a) (f b)

/-- The register operands as bytes, as the encoded form holds them. -/
def raw (i : Instruction Register) : Instruction UInt8 := i.map Register.toByte

/-- The register operands, in the order in which they are encoded. -/
def registers {ρ : Type} : Instruction ρ → List ρ
  | nop | halt | ret | interruptReturn => []
  | loadImmediate r _ | addImmediate r _ => [r]
  | push r | pop r | call r | jump _ r | interrupt r | printNumber r | printChar r => [r]
  | load a b | store a b | alu _ a b | printText a b => [a, b]

theorem registers_map {ρ σ : Type} (f : ρ → σ) (i : Instruction ρ) :
    (i.map f).registers = i.registers.map f := by
  cases i <;> rfl

end Instruction

end Microcomputer
