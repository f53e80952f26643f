import Microcomputer.Text.Hidden
import Microcomputer.Text.Lines

/-!
Text in quotation marks as messages quote it. Marks and backslashes are escaped, four controls have letters
of their own, and any other character that would not show is written by its code point in hexadecimal.
-/

namespace Microcomputer.Text

/-- A character that a quotation shows as itself, if it is not one with an escape of its own. -/
def isShown (c : Char) : Bool :=
  if c.toNat < 0x80 then 0x20 ≤ c.toNat && c.toNat < 0x7F else !inRanges hiddenRanges c

def escapeChar (c : Char) : List Char :=
  if c = '"' then ['\\', '"']
  else if c = '\\' then ['\\', '\\']
  else if c = '\t' then ['\\', 't']
  else if c = '\r' then ['\\', 'r']
  else if c = '\n' then ['\\', 'n']
  else if c = Char.ofNat 0 then ['\\', '0']
  else if isShown c then [c]
  else ['\\', 'u', '\x7b'] ++ Nat.toDigits 16 c.toNat ++ ['\x7d']

def quote (cs : List Char) : String :=
  String.ofList ('"' :: cs.flatMap escapeChar ++ ['"'])

end Microcomputer.Text
