import Microcomputer.Text.Byte

/-!
What print instructions emit, in order. How it is shown is for the reader of the printout to choose; each
emission makes one line.
-/

namespace Microcomputer

inductive Printed
  | number (value : Int)
  | char (c : Char)
  | text (s : String)
  deriving DecidableEq, Repr

/-- Everything printed so far, oldest first. -/
abbrev Printout := Array Printed

/-- The character of a byte: the code point of the same number. -/
def charOfByte (b : UInt8) : Char := Char.ofNat b.toNat

namespace Printed

/-- A byte printed as a signed number. -/
def ofSigned (b : UInt8) : Printed := .number (Text.signed b)

def ofBytes (bytes : List UInt8) : Printed := .text (String.ofList (bytes.map charOfByte))

def line : Printed → String
  | number n => toString n
  | char c => String.singleton c
  | text s => s

def number? : Printed → Option Int
  | number n => some n
  | _ => none

end Printed

namespace Printout

/-- The numbers among the emissions. -/
def numbers (out : Printout) : List Int := out.toList.filterMap Printed.number?

def lines (out : Printout) : List String := out.toList.map Printed.line

/-- Adds what an instruction printed, if it printed anything. -/
def add (out : Printout) : Option Printed → Printout
  | some p => out.push p
  | none => out

theorem lines_add_some (out : Printout) (p : Printed) :
    lines (out.add (some p)) = out.lines ++ [p.line] := by
  simp [lines, add]

@[simp] theorem add_none (out : Printout) : out.add none = out := rfl

end Printout

end Microcomputer
