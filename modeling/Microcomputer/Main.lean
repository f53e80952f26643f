import Microcomputer.CommandLine.Session

/-!
The program. It reads the files that the command names and the keys that wait on standard input, and shows
what the command comes to. A debugger is shown once, as it is when it opens.
-/

namespace Microcomputer.CommandLine

/-- The cause of a failed read. -/
def fileError : IO.Error → FileError
  | .noFileOrDirectory .. => .notFound
  | .inappropriateType _ 20 _ => .notDirectory
  | .inappropriateType _ 21 _ => .isDirectory
  | .invalidArgument _ 36 _ => .nameTooLong
  | e => .system (toString e)

/-- The content of a file, or why it cannot be read. -/
def readFile (path : String) : IO (Except FileError ByteArray) := do
  try
    return .ok (← IO.FS.readBinFile path)
  catch e => return .error (fileError e)

/-- The files that were read, by their paths. -/
def filesOf (entries : List (String × Except FileError ByteArray)) : Files := fun path =>
  (entries.lookup path).getD (.error .notFound)

/-- All of a stream. -/
partial def readAll (stream : IO.FS.Stream) (soFar : ByteArray) : IO ByteArray := do
  let chunk ← stream.read 4096
  if chunk.isEmpty then return soFar else readAll stream (soFar ++ chunk)

/-- The keys that a command takes from standard input. -/
def typedKeys (command : Command) : IO (List UInt8) := do
  match command with
  | .run o =>
    if o.keys.isNone then return (← readAll (← IO.getStdin) .empty).data.toList else return []
  | _ => return []

/-- Performs a command with the files and keys of the system. -/
def serve (arguments : List String) : IO UInt32 := do
  match Command.ofArguments arguments with
  | .error _ =>
    IO.eprint helpText
    return 2
  | .ok command =>
    let entries ← command.paths.mapM fun path => return (path, ← readFile path)
    match command.perform (filesOf entries) (← typedKeys command) with
    | .usage => return 2
    | .finished r =>
      IO.print r.stdout
      IO.eprint r.stderr
      return r.code
    | .debugging d =>
      IO.print (unlines ((d.view 100 30).map Screen.Row.text))
      return 0

end Microcomputer.CommandLine

def main (arguments : List String) : IO UInt32 := Microcomputer.CommandLine.serve arguments
