import Microcomputer.Configuration
import Microcomputer.Device.Keyboard
import Microcomputer.Listing
import Microcomputer.Processor.Inspect
import Microcomputer.Processor.Step

/-!
The machine: a processor with its timer, its keyboard and a printout. Devices are polled between
instructions, the timer first, and only raise interrupt lines; the processor looks at the lines after each
instruction.

A clock says at which instant the poll before each instruction takes place. The clock of a machine that runs by
itself stands at its origin: its timer moves on only where an operation says how much time passes. The timer's
period is the configured one, and so the timer can take every poll (`poll?_timer`).

A run whose configured limit does not fit into 64 bits, counted on from the instructions before it, is aborted
before its first step: `runWith?` gives nothing.
-/

namespace Microcomputer

/-- The instant of the poll that precedes an instruction, by the count of the instructions before it. -/
abbrev Clock := UInt64 → Instant

/-- The clock that stands at its origin. -/
def Clock.still : Clock := fun _ => .origin

structure Machine where
  processor : Processor
  timer : Timer
  keyboard : Keyboard
  printed : Printout
  configuration : Configuration
  /-- Keys delivered, modulo `2^64`; where overflow is checked the program aborts instead of beginning again. -/
  keysDelivered : UInt64
  periodic : timer.period = configuration.timerPeriod

/-- What a run came to that ended without a fault. -/
structure RunSummary where
  /-- Instructions executed by this run. -/
  cycles : UInt64
  state : RunState
  /-- Firings of the timer since the image was loaded. -/
  timerTicks : UInt64
  /-- Keys delivered since the image was loaded. -/
  keys : UInt64
  deriving DecidableEq, Repr

/-- A run that ends with the processor still running has come to its limit. -/
def RunSummary.hitCycleLimit (s : RunSummary) : Bool := s.state = .running

/-- A trace line and the text of the instruction that comes next. -/
def Processor.traceEntry (p : Processor) : String :=
  p.traceLine ++ " | " ++ (p.memory.disassembleAt p.pc).1

namespace Machine

def ofConfiguration (c : Configuration) (keyboard : Keyboard) : Machine where
  processor := .powerOn
  timer := .ofPeriod c.timerPeriod
  keyboard := keyboard
  printed := #[]
  configuration := c
  keysDelivered := 0
  periodic := c.periodic

/-- Resets processor and timer and loads an image. Keyboard and printout stay as they are. -/
def load (m : Machine) (image : List UInt8) : Machine × Except ImageTooLarge Unit :=
  let (processor, result) := m.processor.load image
  ({ m with processor, timer := m.timer.reset, keysDelivered := 0 }, result)

/-- The machine after its timer has come to a later state, firing or not. -/
def afterTimer (m : Machine) (fired : Bool) (timer : Timer) (h : timer.period = m.timer.period) : Machine :=
  { m with timer, processor := m.processor.raiseTimer fired, periodic := h.trans m.periodic }

/-- Lets time pass on the timer alone, if the timer can hold it. -/
def advanceTimer? (m : Machine) (span : Nat) : Option Machine :=
  if m.timer.Holds span then
    some (m.afterTimer (m.timer.advance span).1 (m.timer.advance span).2 (Timer.period_advance _ _))
  else none

def pollTimer (m : Machine) (now : Instant) : Machine :=
  m.afterTimer (m.timer.poll now.nanoseconds).1 (m.timer.poll now.nanoseconds).2 (Timer.period_poll _ _)

/-- Delivers a key, if the keyboard yields one. -/
def pollKeyboard (m : Machine) : Machine :=
  match m.keyboard.poll with
  | (none, keyboard) => { m with keyboard }
  | (some key, keyboard) =>
    { m with
      keyboard
      keysDelivered := m.keysDelivered + 1
      processor := m.processor.press key m.configuration.keyboardLine }

/-- The timer can take every poll. -/
theorem poll?_timer (m : Machine) (now : Instant) :
    m.timer.poll? now.nanoseconds = some (m.timer.poll now.nanoseconds) :=
  Timer.poll?_eq_some (Nat.le_trans (Nat.le_of_eq m.periodic) m.configuration.timerPeriod_le) now

def pollDevices (m : Machine) (now : Instant) : Machine := (m.pollTimer now).pollKeyboard

/-- Polls the devices and executes one instruction. -/
def stepBy (clock : Clock) (m : Machine) : Machine × Except Fault (Instruction Register) :=
  let polled := m.pollDevices (clock m.processor.cycles)
  let s := polled.processor.step
  ({ polled with processor := s.processor, printed := polled.printed.add s.printed }, s.result)

def step (m : Machine) : Machine × Except Fault (Instruction Register) := m.stepBy .still

/-- One turn of a run: a look at the processor, before the devices are polled, and a step, after which the run
goes on or has ended. It ends, too, when the processor has stopped or the count of instructions has come to the
limit. -/
def turn {σ : Type} (look : σ → Processor → σ) (clock : Clock) (limit : Option UInt64) (m : Machine)
    (seen : σ) : (Machine × σ) ⊕ (Machine × σ × Except Fault Unit) :=
  if m.processor.state = .running ∧ m.processor.isBelow limit then
    let seen := look seen m.processor
    match m.stepBy clock with
    | (next, .ok _) => .inl (next, seen)
    | (next, .error f) => .inr (next, seen, .error f)
  else .inr (m, seen, .ok ())

/-- Turn after turn until the run ends. -/
def runWhile {σ : Type} (look : σ → Processor → σ) (clock : Clock) (limit : Option UInt64) (m : Machine)
    (seen : σ) : Machine × σ × Except Fault Unit :=
  have : Nonempty (Machine × σ × Except Fault Unit) := ⟨m, seen, .ok ()⟩
  Id.run (repeatM (fun (r : Machine × σ) => r.1.turn look clock limit r.2) (m, seen))

theorem runWhile_eq {σ : Type} (look : σ → Processor → σ) (clock : Clock) (limit : Option UInt64)
    (m : Machine) (seen : σ) :
    runWhile look clock limit m seen =
      match m.turn look clock limit seen with
      | .inl next => runWhile look clock limit next.1 next.2
      | .inr ended => ended := by
  have : Nonempty (Machine × σ × Except Fault Unit) := ⟨m, seen, .ok ()⟩
  rw [runWhile, repeatM_eq_of_monadTail, repeatM.body]
  cases m.turn look clock limit seen <;> rfl

/-- The count of instructions that ends a run which begins now, if one is configured. A count that does not fit
is no limit at all. -/
def limit? (m : Machine) : Option (Option UInt64) :=
  match m.configuration.maxCycles with
  | none => some none
  | some max => (m.processor.limit? max).map some

/-- What a run that began at `start` instructions has come to. -/
def summary (m : Machine) (start : UInt64) : RunSummary where
  cycles := m.processor.cycles - start
  state := m.processor.state
  timerTicks := m.timer.ticks
  keys := m.keysDelivered

/-- Runs to a halt, a fault or the configured limit, looking at the processor before each step, unless the
limit does not fit. -/
def runWith? {σ : Type} (look : σ → Processor → σ) (clock : Clock) (m : Machine) (seen : σ) :
    Option (Machine × σ × Except Fault RunSummary) :=
  m.limit?.map fun limit =>
    let (last, seen, result) := runWhile look clock limit m seen
    (last, seen, result.map fun _ => last.summary m.processor.cycles)

def run? (m : Machine) : Option (Machine × Except Fault RunSummary) :=
  (m.runWith? (fun seen _ => seen) .still ()).map fun (last, _, result) => (last, result)

/-- Runs and keeps the trace: an entry for each step, the last one too if it faults. -/
def runTraced? (m : Machine) : Option (Machine × Array String × Except Fault RunSummary) :=
  m.runWith? (fun lines p => lines.push p.traceEntry) .still #[]

end Machine

end Microcomputer
