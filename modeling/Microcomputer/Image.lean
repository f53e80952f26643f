import Microcomputer.Files
import Microcomputer.Text.Numeral
import Microcomputer.Text.Quoted

/-!
Program images. A program text has one byte to a line, as eight binary digits. A number sign starts a
comment, blank lines are skipped, and whatever follows the eighth digit is ignored. A file whose extension
says so holds such a text; any other file is an image byte by byte.
-/

namespace Microcomputer

/-- Why a code is no byte. -/
inductive CodeError
  /-- It does not begin with eight binary digits. -/
  | noDigits (code : List Char)
  /-- Its digits could not be read as a number. -/
  | unreadable (cause : Text.NumeralError)
  deriving DecidableEq, Repr

def CodeError.message : CodeError → String
  | .noDigits code => "expected 8 binary digits, found " ++ Text.quote code
  | .unreadable cause => cause.message

inductive LoadError
  | file (cause : FileError)
  /-- Line numbers count from one. -/
  | badLine (number : Nat) (cause : CodeError)
  deriving DecidableEq, Repr

def LoadError.message : LoadError → String
  | .file cause => "I/O error: " ++ cause.message
  | .badLine number cause => "parse error on line " ++ toString number ++ ": " ++ cause.message

namespace Image

/-- The code of a line: the line without its comment and the blanks around what is left. -/
def codeOf (line : List Char) : List Char := Text.trim (line.takeWhile (· ≠ '#'))

def isBit (c : Char) : Bool := c = '0' || c = '1'

/-- The byte of a code: its first eight characters, which have to be eight bytes of text and binary
digits. -/
def byteOf (code : List Char) : Except CodeError UInt8 :=
  let digits := code.take 8
  if byteCount digits ≠ 8 ∨ ¬ digits.all isBit then .error (.noDigits code)
  else (Text.readBinary digits).mapError .unreadable

/-- Reads numbered lines. The first line that is neither blank nor a byte is reported. -/
def ofLines (number : Nat) : List (List Char) → Except LoadError (List UInt8)
  | [] => .ok []
  | line :: rest =>
    match codeOf line with
    | [] => ofLines (number + 1) rest
    | code =>
      match byteOf code with
      | .error cause => .error (.badLine number cause)
      | .ok b => (ofLines (number + 1) rest).map (b :: ·)

/-- Reads a program text. -/
def ofText (text : String) : Except LoadError (List UInt8) := ofLines 1 (Text.lines text.toList)

/-- The extension of program texts. -/
def textExtension : List Char := ['l', 's', '8']

def isTextPath (path : String) : Bool :=
  match extension? path.toList with
  | some e => equalIgnoringCase e textExtension
  | none => false

/-- Loads an image from a file, in the format that its name tells. -/
def load (files : Files) (path : String) : Except LoadError (List UInt8) :=
  if isTextPath path then
    match files.readText path with
    | .ok text => ofText text
    | .error e => .error (.file e)
  else
    match files.readBytes path with
    | .ok bytes => .ok bytes
    | .error e => .error (.file e)

end Image

end Microcomputer
