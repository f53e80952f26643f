import Microcomputer.Json.Basic

/-!
The tokens of a JSON text. Blanks between tokens are spaces, tabs and ends of lines. Characters that are
neither blank nor punctuation make up words; a word runs as far as such characters go.
-/

namespace Microcomputer.Json

inductive Token
  | openArray | closeArray | openObject | closeObject | comma | colon
  | word (written : List Char)
  | string (written : List Char)
  deriving DecidableEq, Repr

def isSpace (c : Char) : Bool := c = ' ' || c = '\t' || c = '\n' || c = '\r'

def punctuation? : Char → Option Token
  | '[' => some .openArray
  | ']' => some .closeArray
  | '\x7b' => some .openObject
  | '\x7d' => some .closeObject
  | ',' => some .comma
  | ':' => some .colon
  | _ => none

/-- What the scanner is in the middle of, with the characters seen of it, last first. -/
inductive Scanning
  | nothing
  | word (seen : List Char)
  | string (seen : List Char)
  | escape (seen : List Char)
  deriving DecidableEq, Repr

/-- The token that a finished word makes, if it is a word of JSON. -/
def wordToken? (seen : List Char) : Option Token :=
  if isWord seen.reverse then some (.word seen.reverse) else none

/-- The token that a finished string makes, if its escapes are known and no control character is in it. -/
def stringToken? (seen : List Char) : Option Token :=
  if (pieces? seen.reverse).isSome then some (.string seen.reverse) else none

def scan : Scanning → List Char → Option (List Token)
  | .nothing, [] => some []
  | .word seen, [] => do return [← wordToken? seen]
  | .string _, [] => none
  | .escape _, [] => none
  | .nothing, c :: rest =>
    if isSpace c then scan .nothing rest
    else if c = '"' then scan (.string []) rest
    else match punctuation? c with
      | some t => (scan .nothing rest).map (t :: ·)
      | none => scan (.word [c]) rest
  | .word seen, c :: rest =>
    if isSpace c then do return (← wordToken? seen) :: (← scan .nothing rest)
    else if c = '"' then do return (← wordToken? seen) :: (← scan (.string []) rest)
    else match punctuation? c with
      | some t => do return (← wordToken? seen) :: t :: (← scan .nothing rest)
      | none => scan (.word (c :: seen)) rest
  | .string seen, c :: rest =>
    if c = '"' then do return (← stringToken? seen) :: (← scan .nothing rest)
    else if c = '\\' then scan (.escape (c :: seen)) rest
    else scan (.string (c :: seen)) rest
  | .escape seen, c :: rest => scan (.string (c :: seen)) rest

/-- The tokens of a text, if it is made of tokens. -/
def Token.ofText? (text : List Char) : Option (List Token) := scan .nothing text

/-- The characters of a token. -/
def Token.chars : Token → List Char
  | openArray => ['[']
  | closeArray => [']']
  | openObject => ['\x7b']
  | closeObject => ['\x7d']
  | comma => [',']
  | colon => [':']
  | word written => written
  | string written => '"' :: written ++ ['"']

end Microcomputer.Json
