import Microcomputer.Instruction.Encoding

/-!
Assembly text of instructions, alone and with their bytes.
-/

namespace Microcomputer

namespace Condition

def mnemonic : Condition → String
  | .always => "JMP"
  | .equal => "JEQ"
  | .notEqual => "JNE"
  | .greater => "JGT"
  | .less => "JLT"
  | .lessOrEqual => "JLE"
  | .greaterOrEqual => "JGE"

end Condition

namespace Instruction

private def register (r : UInt8) : String := "R" ++ toString r.toNat

private def oneOperand (mnemonic : String) (r : UInt8) : String := mnemonic ++ " " ++ register r

private def twoOperands (mnemonic : String) (a b : UInt8) : String :=
  mnemonic ++ " " ++ register a ++ "," ++ register b

private def immediate (mnemonic : String) (r v : UInt8) : String :=
  mnemonic ++ " " ++ register r ++ "," ++ toString v.toNat

/-- The instruction as assembly text, such as `LDI R0,8`. -/
def assembly : Instruction UInt8 → String
  | nop => "NOP"
  | halt => "HLT"
  | ret => "RET"
  | interruptReturn => "IRET"
  | loadImmediate r v => immediate "LDI" r v
  | load r a => twoOperands "LD" r a
  | store a r => twoOperands "ST" a r
  | alu op a b => if op.isUnary then oneOperand op.mnemonic a else twoOperands op.mnemonic a b
  | addImmediate r v => immediate "ADDI" r v
  | push r => oneOperand "PUSH" r
  | pop r => oneOperand "POP" r
  | call r => oneOperand "CALL" r
  | jump c r => oneOperand c.mnemonic r
  | interrupt r => oneOperand "INT" r
  | printNumber r => oneOperand "PRN" r
  | printChar r => oneOperand "PRA" r
  | printText a b => twoOperands "PRM" a b

/-- Width of the assembly column wherever something is printed after it. -/
def assemblyWidth : Nat := 14

/-- The assembly text with the encoded bytes, such as `PRN R0         [47 00]`. -/
def description (i : Instruction UInt8) : String :=
  Text.padRight assemblyWidth i.assembly ++ " [" ++
    " ".intercalate (i.encode.map Text.hex) ++ "]"

end Instruction

end Microcomputer
