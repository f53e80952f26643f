import Microcomputer.Json.Reader

/-!
Writing JSON, without blanks or with one member to a line.
-/

namespace Microcomputer.Json

mutual

def tokens : Json → List Token
  | .word written => [.word written]
  | .string written => [.string written]
  | .array [] => [.openArray, .closeArray]
  | .array (v :: rest) => .openArray :: (tokens v ++ laterItems rest ++ [.closeArray])
  | .object [] => [.openObject, .closeObject]
  | .object ((key, v) :: rest) =>
    .openObject :: .string key :: .colon :: (tokens v ++ laterMembers rest ++ [.closeObject])

def laterItems : List Json → List Token
  | [] => []
  | v :: rest => .comma :: (tokens v ++ laterItems rest)

def laterMembers : List (List Char × Json) → List Token
  | [] => []
  | (key, v) :: rest => .comma :: .string key :: .colon :: (tokens v ++ laterMembers rest)

end

/-- The text of a value without any blank. -/
def compact (v : Json) : String := String.ofList (v.tokens.flatMap Token.chars)

/-- The start of a line at a depth of nesting: two blanks for each level. -/
def lineStart (depth : Nat) : String := "\n" ++ String.ofList (List.replicate (2 * depth) ' ')

def quoted (written : List Char) : String := "\"" ++ String.ofList written ++ "\""

mutual

/-- The text of a value that stands at a depth of nesting, each item and member on a line. -/
def prettyAt (depth : Nat) : Json → String
  | .word written => String.ofList written
  | .string written => quoted written
  | .array [] => "[]"
  | .array (v :: rest) =>
    "[" ++ lineStart (depth + 1) ++ prettyAt (depth + 1) v ++ prettyItems (depth + 1) rest ++
      lineStart depth ++ "]"
  | .object [] => "\x7b\x7d"
  | .object ((key, v) :: rest) =>
    "\x7b" ++ lineStart (depth + 1) ++ quoted key ++ ": " ++ prettyAt (depth + 1) v ++
      prettyMembers (depth + 1) rest ++ lineStart depth ++ "\x7d"

def prettyItems (depth : Nat) : List Json → String
  | [] => ""
  | v :: rest => "," ++ lineStart depth ++ prettyAt depth v ++ prettyItems depth rest

def prettyMembers (depth : Nat) : List (List Char × Json) → String
  | [] => ""
  | (key, v) :: rest =>
    "," ++ lineStart depth ++ quoted key ++ ": " ++ prettyAt depth v ++ prettyMembers depth rest

end

/-- The text of a value with each item and member on a line of its own. -/
def pretty (v : Json) : String := prettyAt 0 v

end Microcomputer.Json
