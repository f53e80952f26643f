/-!
Numerals of base two for a byte. A plus sign may stand before the digits, but not alone.
-/

namespace Microcomputer.Text

/-- Why a text is no numeral for a byte. -/
inductive NumeralError
  | empty
  | invalidDigit
  | overflow
  deriving DecidableEq, Repr

def NumeralError.message : NumeralError → String
  | .empty => "cannot parse integer from empty string"
  | .invalidDigit => "invalid digit found in string"
  | .overflow => "number too large to fit in target type"

def bit? (c : Char) : Option Nat :=
  if c = '0' then some 0 else if c = '1' then some 1 else none

/-- One digit more. A character that is no digit is reported even where the number is too large. -/
def addBit (n : Nat) (c : Char) : Except NumeralError Nat :=
  match bit? c with
  | none => .error .invalidDigit
  | some d => if 2 * n + d < UInt8.size then .ok (2 * n + d) else .error .overflow

def readBits (digits : List Char) : Except NumeralError UInt8 :=
  (digits.foldlM addBit 0).map UInt8.ofNat

/-- The byte that a numeral of base two writes. -/
def readBinary : List Char → Except NumeralError UInt8
  | [] => .error .empty
  | ['+'] => .error .invalidDigit
  | '+' :: digits => readBits digits
  | digits => readBits digits

end Microcomputer.Text
