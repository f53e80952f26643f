/-!
Written forms of a byte and of a padded field: two hexadecimal digits, an address with its `0x`,
eight binary digits, and text padded to a width. All of them count characters.
-/

namespace Microcomputer.Text

/-- The digits of a number below sixteen, with capital letters. -/
def upperDigit (n : Nat) : Char :=
  if n < 10 then Char.ofNat (48 + n) else Char.ofNat (55 + n)

/-- The digits of a number below sixteen, with small letters. -/
def lowerDigit (n : Nat) : Char :=
  if n < 10 then Char.ofNat (48 + n) else Char.ofNat (87 + n)

/-- Two hexadecimal digits, as in `F3`. -/
def hex (b : UInt8) : String :=
  String.ofList [upperDigit (b.toNat / 16), upperDigit (b.toNat % 16)]

/-- A byte as messages name it, as in `0xf3`. -/
def address (b : UInt8) : String :=
  String.ofList ['0', 'x', lowerDigit (b.toNat / 16), lowerDigit (b.toNat % 16)]

/-- The eight binary digits of a byte, most significant first. -/
def bits (b : UInt8) : List Char :=
  [128, 64, 32, 16, 8, 4, 2, 1].map fun weight =>
    if b.toNat / weight % 2 = 1 then '1' else '0'

/-- Eight binary digits, as in `11110011`. -/
def binary (b : UInt8) : String := String.ofList (bits b)

/-- Blanks after the text up to the width. -/
def padRight (width : Nat) (s : String) : String :=
  s ++ String.ofList (List.replicate (width - s.length) ' ')

/-- Blanks before the text up to the width. -/
def padLeft (width : Nat) (s : String) : String :=
  String.ofList (List.replicate (width - s.length) ' ') ++ s

/-- A byte read as a two's complement number. -/
def signed (b : UInt8) : Int :=
  if b.toNat < 128 then (b.toNat : Int) else (b.toNat : Int) - 256

theorem bits_length (b : UInt8) : (bits b).length = 8 := rfl

end Microcomputer.Text
