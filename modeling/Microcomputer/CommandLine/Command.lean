import Microcomputer.CommandLine.Arguments

/-!
The commands of the program: run an image, debug it, or list it. Without a command the program introduces
itself.
-/

namespace Microcomputer.CommandLine

structure RunOptions where
  program : String
  configFile : Option String
  maxCycles : Option UInt64
  trace : Bool
  timerMs : Option UInt64
  delayUs : Option UInt64
  /-- Keys to type, instead of those that come in. -/
  keys : Option String
  keyInterval : Nat
  dumpState : Bool
  deriving DecidableEq, Repr

inductive Command
  | introduce
  | version
  | help
  | run (options : RunOptions)
  | debug (program : String) (configFile : Option String)
  | list (program : String)
  deriving DecidableEq, Repr

namespace Command

def helpOption : OptionSpec := ⟨"help", some 'h', .request⟩
def versionOption : OptionSpec := ⟨"version", some 'V', .request⟩
def configOption : OptionSpec := ⟨"config", some 'c', .text⟩

def runOptions : List OptionSpec :=
  [helpOption, configOption, ⟨"max-cycles", some 'm', .word64⟩, ⟨"trace", some 'd', .flag⟩,
    ⟨"timer-ms", none, .word64⟩, ⟨"delay-us", none, .word64⟩, ⟨"keys", some 'k', .text⟩,
    ⟨"key-interval", none, .word32⟩, ⟨"dump-state", none, .flag⟩]

/-- Instructions from one scripted key to the next, unless they are given. -/
def defaultKeyInterval : Nat := 50

def ofRunArguments (program : String) (f : Found) : Command :=
  .run
    { program
      configFile := f.value? "config"
      maxCycles := f.value? "max-cycles" >>= word64?
      trace := f.has "trace"
      timerMs := f.value? "timer-ms" >>= word64?
      delayUs := f.value? "delay-us" >>= word64?
      keys := f.value? "keys"
      keyInterval := (f.value? "key-interval" >>= word32?).getD defaultKeyInterval
      dumpState := f.has "dump-state" }

/-- Reads the arguments of a command on one program. -/
def ofProgramArguments (specs : List OptionSpec) (build : String → Found → Command)
    (arguments : List String) : Except UsageError Command := do
  match ← readArguments specs 1 (.found .empty) arguments with
  | .requested _ => return .help
  | .found f =>
    match f.others with
    | [program] => return build program f
    | _ => throw {}

/-- Reads what stands before a command; only requests do. -/
def ofRequest (arguments : List String) : Except UsageError Command := do
  match ← readArguments [helpOption, versionOption] 0 (.found .empty) arguments with
  | .requested long => return if long = "version" then .version else .help
  | .found _ => return .introduce

/-- What help can be asked about: the whole program or one command. -/
def hasHelpOn : List String → Bool
  | [] => true
  | [topic] => ["run", "debug", "disasm", "help"].contains topic
  | _ => false

def ofArguments : List String → Except UsageError Command
  | "run" :: rest => ofProgramArguments runOptions ofRunArguments rest
  | "debug" :: rest =>
    ofProgramArguments [helpOption, configOption]
      (fun program f => .debug program (f.value? "config")) rest
  | "disasm" :: rest => ofProgramArguments [helpOption] (fun program _ => .list program) rest
  | "help" :: topics => if hasHelpOn topics then .ok .help else .error {}
  | arguments => ofRequest arguments

/-- The files that a command reads. -/
def paths : Command → List String
  | .run o => o.configFile.toList ++ [o.program]
  | .debug program configFile => configFile.toList ++ [program]
  | .list program => [program]
  | _ => []

end Command

end Microcomputer.CommandLine
