/-!
JSON values. Leaves keep the characters they were written with: a word is one of the three literals or a
number, and a string is what stands between its quotation marks, escapes included. What a leaf means is
asked of it later, so a value is kept however large its numbers are and whatever its strings escape.
-/

namespace Microcomputer

inductive Json where
  | word (written : List Char)
  | string (written : List Char)
  | array (items : List Json)
  | object (members : List (List Char × Json))
  deriving Repr

namespace Json

/-! ## Words -/

def nullWord : List Char := ['n', 'u', 'l', 'l']
def trueWord : List Char := ['t', 'r', 'u', 'e']
def falseWord : List Char := ['f', 'a', 'l', 's', 'e']

/-- Digits of a whole number: at least one, and no zero before others. -/
def isWhole (digits : List Char) : Bool :=
  match digits with
  | [] => false
  | ['0'] => true
  | c :: rest => c != '0' && (c :: rest).all Char.isDigit

/-- The end of a number from its exponent on. -/
def isExponent : List Char → Bool
  | [] => true
  | e :: rest =>
    let digits := match rest with
      | '+' :: more => more
      | '-' :: more => more
      | _ => rest
    (e == 'e' || e == 'E') && !digits.isEmpty && digits.all Char.isDigit

/-- The end of a number from its fraction on. -/
def isFraction : List Char → Bool
  | '.' :: rest => !(rest.takeWhile Char.isDigit).isEmpty && isExponent (rest.dropWhile Char.isDigit)
  | rest => isExponent rest

def isNumber (written : List Char) : Bool :=
  let body := match written with
    | '-' :: rest => rest
    | _ => written
  isWhole (body.takeWhile Char.isDigit) && isFraction (body.dropWhile Char.isDigit)

def isWord (written : List Char) : Bool :=
  written == nullWord || written == trueWord || written == falseWord || isNumber written

/-- The number that decimal digits write. -/
def ofDigits (digits : List Char) : Nat := digits.foldl (fun n c => 10 * n + (c.toNat - 48)) 0

/-! ## Strings -/

/-- A part of a string: a character as it stands or escaped by a letter, or a unit of sixteen bits. -/
inductive Piece
  | char (c : Char)
  | unit (code : Nat)
  deriving DecidableEq, Repr

def hexValue? (c : Char) : Option Nat :=
  if c.isDigit then some (c.toNat - 48)
  else if 'a' ≤ c ∧ c ≤ 'f' then some (c.toNat - 87)
  else if 'A' ≤ c ∧ c ≤ 'F' then some (c.toNat - 55)
  else none

def unitValue? (a b c d : Char) : Option Nat := do
  return ((← hexValue? a) * 16 + (← hexValue? b)) * 256 + (← hexValue? c) * 16 + (← hexValue? d)

/-- The character that a letter after a backslash stands for. -/
def letterValue? : Char → Option Char
  | '"' => some '"'
  | '\\' => some '\\'
  | '/' => some '/'
  | 'b' => some '\x08'
  | 'f' => some '\x0c'
  | 'n' => some '\n'
  | 'r' => some '\r'
  | 't' => some '\t'
  | _ => none

/-- Takes a string apart; there is no control character in it and no unknown escape. -/
def pieces? : List Char → Option (List Piece)
  | [] => some []
  | '\\' :: 'u' :: a :: b :: c :: d :: rest => do
    let code ← unitValue? a b c d
    return .unit code :: (← pieces? rest)
  | '\\' :: letter :: rest => do
    let c ← letterValue? letter
    return .char c :: (← pieces? rest)
  | c :: rest =>
    if c.toNat < 0x20 ∨ c = '\\' then none else (pieces? rest).map (.char c :: ·)

def isHighUnit (code : Nat) : Bool := 0xD800 ≤ code && code < 0xDC00
def isLowUnit (code : Nat) : Bool := 0xDC00 ≤ code && code < 0xE000

/-- Joins units in pairs; a unit that needs a partner and has none makes no text. -/
def join? (high : Option Nat) : List Piece → Option (List Char)
  | [] => if high.isNone then some [] else none
  | .char c :: rest => if high.isNone then (join? none rest).map (c :: ·) else none
  | .unit code :: rest =>
    match high with
    | some h =>
      if isLowUnit code then
        (join? none rest).map (Char.ofNat (0x10000 + (h - 0xD800) * 0x400 + (code - 0xDC00)) :: ·)
      else none
    | none =>
      if isHighUnit code then join? (some code) rest
      else if isLowUnit code then none
      else (join? none rest).map (Char.ofNat code :: ·)

/-- The text of a string from its written form. -/
def decode? (written : List Char) : Option String := do
  let pieces ← pieces? written
  return String.ofList (← join? none pieces)

/-! ## Values of known kinds -/

def null : Json := .word nullWord
def bool (b : Bool) : Json := .word (if b then trueWord else falseWord)
def natural (n : Nat) : Json := .word (Nat.toDigits 10 n)

/-- A string that needs no escapes. -/
def name (s : String) : Json := .string s.toList

/-- Members under names that need no escapes. -/
def record (members : List (String × Json)) : Json :=
  .object (members.map fun (key, value) => (key.toList, value))

end Json

end Microcomputer
