import Microcomputer.Json.Token

/-!
Reading a JSON value from its tokens. The reader keeps a stack of the arrays and objects that are open, so
nesting may go to any depth.
-/

namespace Microcomputer.Json

/-- An open array or object with what is complete of it, last first. An object waits for the value of a
key. -/
inductive Frame
  | array (items : List Json)
  | object (members : List (List Char × Json)) (key : List Char)
  deriving Repr

/-- What the reader has just seen, within the frames that are open. -/
inductive Reading
  /-- A value must come. -/
  | value (frames : List Frame)
  /-- An array was opened: a value or its end comes. -/
  | first (frames : List Frame)
  /-- An object was opened: a key or its end comes. -/
  | firstKey (frames : List Frame)
  /-- A key must come. -/
  | key (members : List (List Char × Json)) (frames : List Frame)
  | colon (members : List (List Char × Json)) (key : List Char) (frames : List Frame)
  /-- A value is complete. -/
  | complete (value : Json) (frames : List Frame)
  deriving Repr

/-- A token where a value must come. -/
def beginValue? (frames : List Frame) : Token → Option Reading
  | .openArray => some (.first frames)
  | .openObject => some (.firstKey frames)
  | .word written => some (.complete (.word written) frames)
  | .string written => some (.complete (.string written) frames)
  | _ => none

def Reading.next? (r : Reading) (t : Token) : Option Reading :=
  match r, t with
  | .value frames, t => beginValue? frames t
  | .first frames, .closeArray => some (.complete (.array []) frames)
  | .first frames, t => beginValue? (.array [] :: frames) t
  | .firstKey frames, .closeObject => some (.complete (.object []) frames)
  | .firstKey frames, .string k => some (.colon [] k frames)
  | .key members frames, .string k => some (.colon members k frames)
  | .colon members k frames, .colon => some (.value (.object members k :: frames))
  | .complete v (.array items :: frames), .comma => some (.value (.array (v :: items) :: frames))
  | .complete v (.array items :: frames), .closeArray =>
    some (.complete (.array (v :: items).reverse) frames)
  | .complete v (.object members k :: frames), .comma => some (.key ((k, v) :: members) frames)
  | .complete v (.object members k :: frames), .closeObject =>
    some (.complete (.object ((k, v) :: members).reverse) frames)
  | _, _ => none

def Reading.value? : Reading → Option Json
  | .complete v [] => some v
  | _ => none

def ofTokens? (tokens : List Token) : Option Json := do
  let r ← tokens.foldlM Reading.next? (.value [])
  r.value?

/-- The value of a text, if the text is one JSON value. -/
def ofText? (text : String) : Option Json := do ofTokens? (← Token.ofText? text.toList)

/-! ## What a value holds -/

def isNull : Json → Bool
  | .word written => written == nullWord
  | _ => false

def bool? : Json → Option Bool
  | .word written =>
    if written == trueWord then some true else if written == falseWord then some false else none
  | _ => none

/-- A whole number below a limit, written with digits alone. -/
def naturalBelow? (limit : Nat) : Json → Option Nat
  | .word written =>
    if isWhole written ∧ ofDigits written < limit then some (ofDigits written) else none
  | _ => none

def byte? (v : Json) : Option UInt8 := (v.naturalBelow? 256).map UInt8.ofNat
def word64? (v : Json) : Option UInt64 := (v.naturalBelow? UInt64.size).map UInt64.ofNat

/-- Null for nothing. -/
def optional? {α : Type} (read? : Json → Option α) (v : Json) : Option (Option α) :=
  if v.isNull then some none else (read? v).map some

def items? : Json → Option (List Json)
  | .array items => some items
  | _ => none

/-- All values, if every one can be read. -/
def list? {α : Type} (read? : Json → Option α) (v : Json) : Option (List α) := do
  (← v.items?).mapM read?

/-- How the fields of a record may be written. -/
structure Layout where
  fields : List String
  /-- Members of other names are passed over. -/
  othersAllowed : Bool
  /-- A record written as an array may stop early. -/
  shortAllowed : Bool

/-- Puts a member with its field; there must be no earlier one for the same field. -/
def Layout.place? (layout : Layout) (found : List (String × Json)) (member : List Char × Json) :
    Option (List (String × Json)) := do
  let key ← decode? member.1
  if layout.fields.contains key then
    if found.any (·.1 == key) then none else return (key, member.2) :: found
  else if layout.othersAllowed then return found
  else none

/-- The fields of a record by name. A record is written as an object, in any order, or as an array in the
order of its fields. -/
def fields? (layout : Layout) : Json → Option (List (String × Json))
  | .object members => members.foldlM layout.place? []
  | .array items =>
    if items.length = layout.fields.length ∨
        (layout.shortAllowed = true ∧ items.length < layout.fields.length) then
      some (layout.fields.zip items)
    else none
  | _ => none

/-- The value of a field that must be there. -/
def field? {α : Type} (fields : List (String × Json)) (key : String) (read? : Json → Option α) :
    Option α := do read? (← fields.lookup key)

/-- The value of a field, or another if the field is absent. -/
def fieldOr? {α : Type} (fields : List (String × Json)) (key : String) (absent : α)
    (read? : Json → Option α) : Option α :=
  match fields.lookup key with
  | some v => read? v
  | none => some absent

/-- A choice among named variants: the name alone, or an object of one member that holds the variant's
content under its name. -/
def variant? : Json → Option (String × Json)
  | .string written => (decode? written).map fun key => (key, null)
  | .object [(key, content)] => (decode? key).map fun key => (key, content)
  | _ => none

/-- Whether a variant's content is an array, which lists fields without their names. -/
def hasListedContent : Json → Bool
  | .object [(_, .array _)] => true
  | _ => false

/-- The value of a member of an object, by the name it has once escapes are read. -/
def member? (v : Json) (key : String) : Option Json :=
  match v with
  | .object members => (members.find? fun m => decode? m.1 == some key).map (·.2)
  | _ => none

end Microcomputer.Json
