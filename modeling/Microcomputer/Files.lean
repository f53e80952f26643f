/-!
Files as programs and configurations are read from them: a path leads to bytes or to the reason why there
are none. `Files.ofList` is a directory that holds the named files and nothing else; the directories
above it can be walked through and hold no other file.
-/

namespace Microcomputer

inductive FileError
  | notFound
  | notDirectory
  | isDirectory
  | nameTooLong
  | nulInName
  | invalidUtf8
  /-- Any other reason, in the words of the system. -/
  | system (reason : String)
  deriving DecidableEq, Repr

def FileError.message : FileError → String
  | .notFound => "No such file or directory (os error 2)"
  | .notDirectory => "Not a directory (os error 20)"
  | .isDirectory => "Is a directory (os error 21)"
  | .nameTooLong => "File name too long (os error 36)"
  | .nulInName => "file name contained an unexpected NUL byte"
  | .invalidUtf8 => "stream did not contain valid UTF-8"
  | .system reason => reason

abbrev Files := String → Except FileError ByteArray

/-! ## Paths -/

abbrev FileName := List Char

/-- A dot, or nothing between two slashes, stands for no step. -/
def FileName.isStay (name : FileName) : Bool := name == [] || name == ['.']

def FileName.isUp (name : FileName) : Bool := name == ['.', '.']

/-- The most bytes that a name may have. -/
def longestName : Nat := 255

/-- The most bytes that a path may have. -/
def longestPath : Nat := 4095

def byteCount (cs : List Char) : Nat := (String.ofList cs).utf8ByteSize

/-- The names along a path, without those that stand for no step. -/
def pathNames (path : List Char) : List FileName := (path.splitOn '/').filter (!FileName.isStay ·)

/-- What follows the last dot of the last name, unless that dot begins the name. -/
def extension? (path : List Char) : Option (List Char) :=
  match (pathNames path).getLast? with
  | none => none
  | some name =>
    match name.reverse.dropWhile (· ≠ '.') with
    | '.' :: _ :: _ => if name.isUp then none else some (name.reverse.takeWhile (· ≠ '.')).reverse
    | _ => none

/-- The same letters, where a capital and a small letter of ASCII count as one. -/
def equalIgnoringCase (a b : List Char) : Bool := a.map Char.toLower == b.map Char.toLower

namespace Files

/-! ## A directory in memory -/

/-- Where a walk along a path has come to. -/
inductive Place
  /-- The directory of the files, or one below it by its names. -/
  | inside (names : List FileName)
  /-- A directory above. -/
  | above
  | file (content : ByteArray)

/-- One name further. -/
def Place.walk (entries : List (String × ByteArray)) (p : Place) (name : FileName) :
    Except FileError Place :=
  match p with
  | .file _ => .error .notDirectory
  | .above =>
    if name.isStay ∨ name.isUp then .ok .above
    else if longestName < byteCount name then .error .nameTooLong
    else .error .notFound
  | .inside names =>
    if name.isStay then .ok (.inside names)
    else if name.isUp then .ok (if names = [] then .above else .inside names.dropLast)
    else if longestName < byteCount name then .error .nameTooLong
    else
      let target := names ++ [name]
      match entries.findRev? fun entry => pathNames entry.1.toList == target with
      | some (_, content) => .ok (.file content)
      | none =>
        if entries.any fun entry => target.isPrefixOf (pathNames entry.1.toList) then
          .ok (.inside target)
        else .error .notFound

/-- Paths start in the directory, or far above it if they begin with a slash. -/
def start (path : List Char) : Place := if path.head? = some '/' then .above else .inside []

/-- Reads the file that a path leads to. Of two entries of one name the later counts. -/
def ofList (entries : List (String × ByteArray)) : Files := fun path =>
  let written := path.toList
  if written.contains (Char.ofNat 0) then .error .nulInName
  else if written = [] then .error .notFound
  else if longestPath < byteCount written then .error .nameTooLong
  else
    match (written.splitOn '/').foldlM (Place.walk entries) (start written) with
    | .error e => .error e
    | .ok (.file content) => .ok content
    | .ok _ => .error .isDirectory

def readBytes (files : Files) (path : String) : Except FileError (List UInt8) :=
  (files path).map fun content => content.data.toList

def readText (files : Files) (path : String) : Except FileError String := do
  let content ← files path
  match String.fromUTF8? content with
  | some text => return text
  | none => throw .invalidUtf8

end Files

end Microcomputer
