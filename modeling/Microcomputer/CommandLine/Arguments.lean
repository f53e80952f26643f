/-!
Command line arguments in the usual form. An option has a long name and may have a short one; one with a
value takes it from the same argument or from the next, which then may not begin with a dash unless it is
a dash alone. Short options without a value may share an argument. Two dashes end the options. No option
may be given twice, and values are checked as they come.

An option that asks for help or for the version ends the reading at once.
-/

namespace Microcomputer.CommandLine

/-- Arguments that the program does not understand. -/
structure UsageError where
  deriving DecidableEq, Repr

/-- What an option takes. -/
inductive Kind
  /-- No value; it is given or not. -/
  | flag
  /-- No value; nothing after it is read. -/
  | request
  | text
  | word32
  | word64
  deriving DecidableEq, Repr

structure OptionSpec where
  long : String
  short : Option Char
  kind : Kind
  deriving DecidableEq, Repr

/-- The number that one or more decimal digits write. -/
def decimal? (digits : List Char) : Option Nat :=
  if digits ≠ [] ∧ digits.all Char.isDigit then
    some (digits.foldl (fun n c => 10 * n + (c.toNat - 48)) 0)
  else none

/-- A number below `2^64`; a plus sign may stand before it. -/
def word64? (s : String) : Option UInt64 := do
  let n ← decimal? (match s.toList with
    | '+' :: rest => rest
    | digits => digits)
  if n < UInt64.size then some (UInt64.ofNat n) else none

/-- A number below `2^32`; a sign may stand before it, a minus sign only before zero. -/
def word32? (s : String) : Option Nat :=
  match s.toList with
  | '-' :: rest => do if (← decimal? rest) = 0 then some 0 else none
  | '+' :: rest => do
    let n ← decimal? rest
    if n < UInt32.size then some n else none
  | digits => do
    let n ← decimal? digits
    if n < UInt32.size then some n else none

def Kind.accepts (kind : Kind) (value : String) : Bool :=
  match kind with
  | .flag | .request => false
  | .text => true
  | .word32 => (word32? value).isSome
  | .word64 => (word64? value).isSome

/-- What was read so far: options by their long names with their values, and the other arguments. -/
structure Found where
  options : List (String × String)
  others : List String
  deriving DecidableEq, Repr

/-- The outcome of reading: all arguments, or the request that ended it. -/
inductive Parsed
  | found (f : Found)
  | requested (long : String)
  deriving DecidableEq, Repr

namespace Found

def empty : Found := ⟨[], []⟩

def add (f : Found) (o : OptionSpec) (value : String) : Except UsageError Found :=
  if (f.options.lookup o.long).isSome then .error {}
  else .ok { f with options := f.options ++ [(o.long, value)] }

/-- Adds an option with the value it was given. -/
def addValue (f : Found) (o : OptionSpec) (value : String) : Except UsageError Found :=
  if o.kind.accepts value then f.add o value else .error {}

/-- Adds an argument that is no option, if there may be one more. -/
def addOther (f : Found) (limit : Nat) (value : String) : Except UsageError Found :=
  if f.others.length < limit then .ok { f with others := f.others ++ [value] } else .error {}

def has (f : Found) (long : String) : Bool := (f.options.lookup long).isSome
def value? (f : Found) (long : String) : Option String := f.options.lookup long

end Found

/-- Where the reading stands after an argument. -/
inductive Progress
  | found (f : Found)
  /-- The next argument is the value of the option. -/
  | pending (f : Found) (o : OptionSpec)
  | requested (long : String)
  deriving DecidableEq, Repr

/-- Reads the short options that share an argument. -/
def readCluster (specs : List OptionSpec) (f : Found) : List Char → Except UsageError Progress
  | [] => .ok (.found f)
  | c :: rest =>
    match specs.find? fun o => o.short == some c with
    | none => .error {}
    | some o =>
      match o.kind with
      | .request => .ok (.requested o.long)
      | .flag => do readCluster specs (← f.add o "") rest
      | _ =>
        match rest with
        | [] => .ok (.pending f o)
        | '=' :: value => (f.addValue o (String.ofList value)).map .found
        | value => (f.addValue o (String.ofList value)).map .found

/-- Reads a long option, without its dashes. -/
def readLong (specs : List OptionSpec) (f : Found) (written : List Char) :
    Except UsageError Progress :=
  let long := String.ofList (written.takeWhile (· ≠ '='))
  match specs.find? fun o => o.long == long, written.dropWhile (· ≠ '=') with
  | none, _ => .error {}
  | some o, [] =>
    match o.kind with
    | .request => .ok (.requested o.long)
    | .flag => (f.add o "").map .found
    | _ => .ok (.pending f o)
  | some o, _ :: value => (f.addValue o (String.ofList value)).map .found

/-- Reads arguments, at most `limit` of which are no options. -/
def readArguments (specs : List OptionSpec) (limit : Nat) :
    Progress → List String → Except UsageError Parsed
  | .requested long, _ => .ok (.requested long)
  | .found f, [] => .ok (.found f)
  | .pending _ _, [] => .error {}
  | .pending f o, arg :: rest =>
    match arg.toList with
    | '-' :: _ :: _ => .error {}
    | _ => do readArguments specs limit (.found (← f.addValue o arg)) rest
  | .found f, arg :: rest =>
    match arg.toList with
    | ['-', '-'] => do return .found (← rest.foldlM (fun f arg => f.addOther limit arg) f)
    | '-' :: '-' :: written => do readArguments specs limit (← readLong specs f written) rest
    | '-' :: c :: more => do readArguments specs limit (← readCluster specs f (c :: more)) rest
    | _ => do readArguments specs limit (.found (← f.addOther limit arg)) rest

end Microcomputer.CommandLine
