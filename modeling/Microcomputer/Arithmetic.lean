import Microcomputer.Flags

/-!
The arithmetic and logic unit. Operations work on unsigned bytes modulo 256; a comparison yields flags
and touches no register. Only a division or a remainder can fail, and only by a zero divisor.
-/

namespace Microcomputer

inductive AluOp
  | add | sub | mul | div | mod | inc | dec | and | or | xor | not | shl | shr | cmp
  deriving DecidableEq, Repr, Inhabited

inductive ArithmeticError
  | divisionByZero
  deriving DecidableEq, Repr

/-- What an operation yields: a byte for its first register, or new flags. -/
inductive AluResult
  | value (v : UInt8)
  | flags (f : Flags)
  deriving DecidableEq, Repr

namespace AluOp

def all : List AluOp :=
  [.add, .sub, .mul, .div, .mod, .inc, .dec, .and, .or, .xor, .not, .shl, .shr, .cmp]

/-- Operations on one register. -/
def isUnary : AluOp → Bool
  | .inc | .dec | .not => true
  | _ => false

def mnemonic : AluOp → String
  | .add => "ADD"
  | .sub => "SUB"
  | .mul => "MUL"
  | .div => "DIV"
  | .mod => "MOD"
  | .inc => "INC"
  | .dec => "DEC"
  | .and => "AND"
  | .or => "OR"
  | .xor => "XOR"
  | .not => "NOT"
  | .shl => "SHL"
  | .shr => "SHR"
  | .cmp => "CMP"

def ofMnemonic? (s : String) : Option AluOp := all.find? (·.mnemonic == s)

/-- Applies the operation to the destination `a` and the source `b`; a unary operation ignores `b`.
A shift by eight or more clears the byte. -/
def compute (op : AluOp) (a b : UInt8) : Except ArithmeticError AluResult :=
  match op with
  | .add => .ok (.value (a + b))
  | .sub => .ok (.value (a - b))
  | .mul => .ok (.value (a * b))
  | .div => if b = 0 then .error .divisionByZero else .ok (.value (a / b))
  | .mod => if b = 0 then .error .divisionByZero else .ok (.value (a % b))
  | .inc => .ok (.value (a + 1))
  | .dec => .ok (.value (a - 1))
  | .and => .ok (.value (a &&& b))
  | .or => .ok (.value (a ||| b))
  | .xor => .ok (.value (a ^^^ b))
  | .not => .ok (.value (~~~a))
  | .shl => .ok (.value (if b < 8 then a <<< b else 0))
  | .shr => .ok (.value (if b < 8 then a >>> b else 0))
  | .cmp => .ok (.flags (Flags.ofComparison a b))

theorem compute_eq_error_iff (op : AluOp) (a b : UInt8) (e : ArithmeticError) :
    op.compute a b = .error e ↔ (op = .div ∨ op = .mod) ∧ b = 0 := by
  cases e
  cases op <;> simp [compute]

end AluOp

namespace ArithmeticError

def message : ArithmeticError → String
  | .divisionByZero => "division by zero"

end ArithmeticError

end Microcomputer
