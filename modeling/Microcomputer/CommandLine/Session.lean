import Microcomputer.CommandLine.Command
import Microcomputer.CommandLine.Console
import Microcomputer.Debugger.View
import Microcomputer.Image
import Microcomputer.Snapshot

/-!
What a command does, as a function of the files it reads and the keys that wait for it. What a program
prints goes to the standard output; traces and reports go to the error output.
-/

namespace Microcomputer.CommandLine

/-- The output of a command and its exit code. -/
structure Response where
  code : UInt32
  stdout : String
  stderr : String
  deriving DecidableEq, Repr

/-- How a command ends. -/
inductive Session
  /-- The arguments were not understood. -/
  | usage
  | finished (r : Response)
  /-- A debugger is ready to be shown. -/
  | debugging (d : Debugger)

namespace Response

def success (stdout : String) : Response := ⟨0, stdout, ""⟩
def failure (report : String) : Response := ⟨1, "", "❌ " ++ report ++ "\n"⟩

/-- The program was aborted. What the system reports of that is left out. -/
def aborted : Response := ⟨101, "", ""⟩

end Response

def introduction : String :=
  unlines ["LS-8 Emulator v0.1.0", "An 8-bit microcomputer emulator", "",
    "Use --help for available commands"]

def versionText : String := unlines ["ls8-emu 0.1.0"]

def helpText : String :=
  unlines ["An emulator of the LS-8 8-bit microcomputer", "",
    "Usage: ls8-emu run [OPTIONS] <PROGRAM>", "       ls8-emu debug [--config FILE] <PROGRAM>",
    "       ls8-emu disasm <PROGRAM>"]

/-- The configuration that a command asks for, or the report of why there is none. -/
def configuration (files : Files) : Option String → Except Response Configuration
  | none => .ok .default
  | some path =>
    match Configuration.load files path with
    | .ok c => .ok c
    | .error e =>
      .error (.failure ("Failed to load config " ++ path ++ ": " ++
        e.message?.getD "invalid config"))

/-- The image that a command works on, with at least one byte. -/
def image (files : Files) (path : String) : Except Response (List UInt8) :=
  match Image.load files path with
  | .ok [] => .error (.failure "No instructions to execute")
  | .ok bytes => .ok bytes
  | .error e => .error (.failure ("Failed to load " ++ path ++ ": " ++ e.message))

/-- The configuration of a file with the options of a run put over it. -/
def RunOptions.override (o : RunOptions) (c : Configuration) : Configuration :=
  { c with
    maxCycles := o.maxCycles <|> c.maxCycles
    timerPeriodMs := o.timerMs.getD c.timerPeriodMs
    cycleDelayUs := o.delayUs.getD c.cycleDelayUs
    trace := c.trace || o.trace }

/-- The keys that a run types: its own, or those that came in. -/
def RunOptions.keyboard (o : RunOptions) (typed : List UInt8) : Keyboard :=
  match o.keys with
  | some keys => .scripted (.ofKeys keys.toUTF8.data.toList o.keyInterval)
  | none => .typed typed

/-- The report of a run that met a fault. -/
def faultReport (p : Processor) (f : Fault) : String :=
  let last := match p.lastInstruction with
    | some i => i.description
    | none => "-"
  "❌ CPU fault: " ++ f.message ++ "\n" ++
    unlines ["   " ++ p.traceLine, "   last instruction: " ++ last]

/-- The report of a run that ended without a fault; there is one if it came to its limit. -/
def limitReport (s : RunSummary) : String :=
  if s.hitCycleLimit then
    "⚠️  Reached max cycles limit (" ++ toString s.cycles.toNat ++
      "). Use --max-cycles to increase.\n"
  else ""

/-- The response to a run that has ended on a console. -/
def runResponse (dumpState : Bool) (c : Console) (result : Except Fault RunSummary) : Response :=
  let state := if dumpState then unlines [c.machine.processor.prettyText] else ""
  match result with
  | .ok summary => ⟨0, c.stdout ++ state, c.stderr ++ limitReport summary⟩
  | .error f => ⟨1, c.stdout ++ state, c.stderr ++ faultReport c.machine.processor f⟩

def runProgram (files : Files) (typed : List UInt8) (o : RunOptions) : Except Response Response := do
  let base ← configuration files o.configFile
  let c := o.override base
  let program ← image files o.program
  let (machine, loaded) := (Machine.ofConfiguration c (o.keyboard typed)).load program
  match loaded with
  | .error e => throw (.failure ("Failed to load program: " ++ e.message))
  | .ok _ =>
    match (Console.ofMachine machine).run? with
    | none => throw .aborted
    | some (last, result) => return runResponse o.dumpState last result

def openDebugger (files : Files) (program : String) (configFile : Option String) :
    Except Response Debugger := do
  let c ← configuration files configFile
  return Debugger.ofImage (← image files program) c

/-- The listing of an image, and an empty line after it. -/
def listProgram (files : Files) (program : String) : Except Response Response := do
  return .success (unlines [Listing.text (← image files program)])

def Command.perform (files : Files) (typed : List UInt8) : Command → Session
  | .introduce => .finished (.success introduction)
  | .version => .finished (.success versionText)
  | .help => .finished (.success helpText)
  | .run o =>
    match runProgram files typed o with
    | .ok r => .finished r
    | .error r => .finished r
  | .debug program configFile =>
    match openDebugger files program configFile with
    | .ok d => .debugging d
    | .error r => .finished r
  | .list program =>
    match listProgram files program with
    | .ok r => .finished r
    | .error r => .finished r

/-- Performs the command that the arguments give. -/
def perform (files : Files) (typed : List UInt8) (arguments : List String) : Session :=
  match Command.ofArguments arguments with
  | .ok command => command.perform files typed
  | .error _ => .usage

end Microcomputer.CommandLine
