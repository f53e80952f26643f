import Microcomputer.Configuration
import Microcomputer.Listing
import Microcomputer.Processor.Step

/-!
The debugger: a processor with its timer, the image that a reset loads again, breakpoints, and what is shown
beside them. It executes one instruction at a time, on its own or by a tick while it runs.

Each instruction is preceded by a poll of the timer at some instant. As in a machine, the clock stands at its
origin unless it is said what the instant is, and the timer can take every poll (`poll?_timer`).
-/

namespace Microcomputer

/-- What the status line reports. -/
inductive Status
  /-- A new debugger, whatever became of loading its image. -/
  | ready
  | reset
  | loadRefused (e : ImageTooLarge)
  | stepped (pc : UInt8) (i : Instruction Register)
  | faulted (f : Fault)
  /-- A step was asked of a processor that does not run. -/
  | stopped (state : RunState)
  | running
  /-- A run has come to its end. -/
  | finished (cycles : UInt64) (state : RunState)
  | breakpoint (pc : UInt8)
  | breakpointSet (pc : UInt8)
  | breakpointRemoved (pc : UInt8)
  | keyLatched (key : UInt8)
  deriving DecidableEq, Repr

namespace Status

def text : Status → String
  | ready => "Ready. Press 's' to step, 'r' to run, 'q' to quit."
  | reset => "Reset. Ready."
  | loadRefused e => "Load error: " ++ e.message
  | stepped pc i => "PC=" ++ Text.hex pc ++ ": " ++ i.raw.assembly
  | faulted f => "Fault: " ++ f.message
  | stopped state => "CPU stopped: " ++ state.name
  | running => "Running..."
  | finished cycles state =>
    "Stopped after " ++ toString cycles.toNat ++ " cycles: " ++ state.name
  | breakpoint pc => "Breakpoint at PC=" ++ Text.hex pc
  | breakpointSet pc => "Set breakpoint at PC=" ++ Text.hex pc
  | breakpointRemoved pc => "Removed breakpoint at PC=" ++ Text.hex pc
  | keyLatched key => "Key " ++ Text.address key ++ " latched"

end Status

/-- A set of addresses. -/
structure Breakpoints where
  marks : Vector Bool 256
  deriving DecidableEq, Repr

namespace Breakpoints

def empty : Breakpoints := ⟨Vector.replicate 256 false⟩

def contains (b : Breakpoints) (a : UInt8) : Bool := b.marks.get a.toFin

def set (b : Breakpoints) (a : UInt8) (mark : Bool) : Breakpoints :=
  ⟨b.marks.set a.toNat mark a.toNat_lt⟩

def toggle (b : Breakpoints) (a : UInt8) : Breakpoints := b.set a (!b.contains a)

/-- The addresses in ascending order. -/
def toList (b : Breakpoints) : List UInt8 := (Memory.addresses 0 memorySize).filter b.contains

end Breakpoints

structure Debugger where
  processor : Processor
  image : List UInt8
  printed : Printout
  timer : Timer
  configuration : Configuration
  breakpoints : Breakpoints
  /-- Whether ticks execute instructions. -/
  running : Bool
  /-- Whether typed characters go to the keyboard. -/
  inputMode : Bool
  status : Status
  /-- The first row that the memory view shows. -/
  scroll : Nat
  periodic : timer.period = configuration.timerPeriod

namespace Debugger

/-- Bytes in a row of the memory view. -/
def rowBytes : Nat := 16

def lastRow : Nat := memorySize / rowBytes - 1

/-- Loads the image again and forgets what was printed. Breakpoints and view stay as they are. -/
def reset (d : Debugger) : Debugger :=
  let (processor, result) := d.processor.load d.image
  { d with
    processor
    printed := #[]
    timer := d.timer.reset
    running := false
    status := match result with
      | .ok _ => .reset
      | .error e => .loadRefused e }

/-- A debugger on an image. It calls itself ready even if the image was refused. -/
def ofImage (image : List UInt8) (c : Configuration) : Debugger :=
  let fresh : Debugger :=
    { processor := .powerOn
      image
      printed := #[]
      timer := .ofPeriod c.timerPeriod
      configuration := c
      breakpoints := .empty
      running := false
      inputMode := false
      status := .ready
      scroll := 0
      periodic := c.periodic }
  { fresh.reset with status := .ready }

/-- Polls the timer at an instant; a firing raises its line. -/
def pollTimer (now : Instant) (d : Debugger) : Debugger :=
  { d with
    timer := (d.timer.poll now.nanoseconds).2
    processor := d.processor.raiseTimer (d.timer.poll now.nanoseconds).1
    periodic := (Timer.period_poll _ _).trans d.periodic }

/-- The timer can take every poll. -/
theorem poll?_timer (d : Debugger) (now : Instant) :
    d.timer.poll? now.nanoseconds = some (d.timer.poll now.nanoseconds) :=
  Timer.poll?_eq_some (Nat.le_trans (Nat.le_of_eq d.periodic) d.configuration.timerPeriod_le) now

/-- Executes one instruction, if the processor runs. -/
def stepAt (now : Instant) (d : Debugger) : Debugger :=
  if d.processor.state = .running then
    let polled := d.pollTimer now
    let s := polled.processor.step
    let next := { polled with processor := s.processor, printed := polled.printed.add s.printed }
    match s.result with
    | .ok i => { next with status := .stepped polled.processor.pc i }
    | .error f => { next with status := .faulted f, running := false }
  else { d with status := .stopped d.processor.state, running := false }

def step (d : Debugger) : Debugger := d.stepAt .origin

/-- Starts a run; ticks carry it on. -/
def run (d : Debugger) : Debugger := { d with running := true, status := .running }

/-- Stops a run that has come to a breakpoint. -/
def checkBreakpoint (d : Debugger) : Debugger :=
  if d.running && d.breakpoints.contains d.processor.pc then
    { d with running := false, status := .breakpoint d.processor.pc }
  else d

/-- Carries a run on by one instruction. -/
def tickAt (now : Instant) (d : Debugger) : Debugger :=
  if d.running then
    if d.processor.state = .running then (d.stepAt now).checkBreakpoint
    else { d with running := false, status := .finished d.processor.cycles d.processor.state }
  else d

def tick (d : Debugger) : Debugger := d.tickAt .origin

/-- Sets a breakpoint at the program counter, or removes the one that is there. -/
def toggleBreakpoint (d : Debugger) : Debugger :=
  let pc := d.processor.pc
  { d with
    breakpoints := d.breakpoints.toggle pc
    status := if d.breakpoints.contains pc then .breakpointRemoved pc else .breakpointSet pc }

/-- A key is typed on the machine's keyboard. -/
def press (d : Debugger) (key : UInt8) : Debugger :=
  { d with
    processor := d.processor.press key d.configuration.keyboardLine
    status := .keyLatched key }

/-- Scrolls the memory view by some rows, as far as it goes. -/
def scrollBy (d : Debugger) (rows : Int) : Debugger :=
  { d with scroll := min (d.scroll + rows).toNat lastRow }

end Debugger

end Microcomputer
