import Microcomputer.Device.Timer
import Microcomputer.Files
import Microcomputer.Interrupt
import Microcomputer.Json.Writer

/-!
The configuration of a machine, read from a JSON text. Every field may be left out and no other may be
given. The keyboard may raise any line but the timer's.
-/

namespace Microcomputer

structure Configuration where
  /-- The timer's period in milliseconds; zero switches the timer off. -/
  timerPeriodMs : UInt64
  /-- The line that the keyboard raises. -/
  keyboardLine : UInt8
  /-- The pause after each instruction in microseconds. -/
  cycleDelayUs : UInt64
  /-- How many instructions a run executes at most. -/
  maxCycles : Option UInt64
  /-- Whether a run shows a trace line before each instruction. -/
  trace : Bool
  deriving DecidableEq, Repr

inductive ConfigurationError
  | file (cause : FileError)
  | malformed
  | invalidKeyboardLine (line : UInt8)
  deriving DecidableEq, Repr

/-- What is wrong, where there are words for it. -/
def ConfigurationError.message? : ConfigurationError → Option String
  | .file cause => some ("I/O error: " ++ cause.message)
  | .malformed => none
  | .invalidKeyboardLine line =>
    some ("keyboard line " ++ toString line.toNat ++ " must be 1-7 (line 0 belongs to the timer)")

namespace Configuration

def default : Configuration where
  timerPeriodMs := 1000
  keyboardLine := 1
  cycleDelayUs := 0
  maxCycles := none
  trace := false

instance : Inhabited Configuration := ⟨default⟩

/-- The timer's period in nanoseconds. -/
def timerPeriod (c : Configuration) : Nat := c.timerPeriodMs.toNat * 1000000

/-- The pause after each instruction in nanoseconds. -/
def cycleDelay (c : Configuration) : Nat := c.cycleDelayUs.toNat * 1000

theorem timerPeriod_le (c : Configuration) : c.timerPeriod ≤ Timer.longestPeriod :=
  Nat.mul_le_mul_right _ (Nat.le_sub_one_of_lt c.timerPeriodMs.toNat_lt)

/-- A timer of the configured period. -/
theorem periodic (c : Configuration) : (Timer.ofPeriod c.timerPeriod).period = c.timerPeriod := rfl

def layout : Json.Layout where
  fields := ["timer_period_ms", "keyboard_line", "cycle_delay_us", "max_cycles", "trace"]
  othersAllowed := false
  shortAllowed := true

def ofJson? (v : Json) : Option Configuration := do
  let fields ← v.fields? layout
  let timerPeriodMs ← Json.fieldOr? fields "timer_period_ms" default.timerPeriodMs Json.word64?
  let keyboardLine ← Json.fieldOr? fields "keyboard_line" default.keyboardLine Json.byte?
  let cycleDelayUs ← Json.fieldOr? fields "cycle_delay_us" default.cycleDelayUs Json.word64?
  let maxCycles ← Json.fieldOr? fields "max_cycles" default.maxCycles (Json.optional? Json.word64?)
  let trace ← Json.fieldOr? fields "trace" default.trace Json.bool?
  return ⟨timerPeriodMs, keyboardLine, cycleDelayUs, maxCycles, trace⟩

/-- A keyboard line that is not the timer's and has a bit of its own. -/
def IsKeyboardLine (line : UInt8) : Prop := 1 ≤ line ∧ line ≤ 7

instance (line : UInt8) : Decidable (IsKeyboardLine line) := inferInstanceAs (Decidable (_ ∧ _))

def validate (c : Configuration) : Except ConfigurationError Configuration :=
  if IsKeyboardLine c.keyboardLine then .ok c else .error (.invalidKeyboardLine c.keyboardLine)

/-- Reads and validates a configuration. -/
def ofText (text : String) : Except ConfigurationError Configuration :=
  match Json.ofText? text with
  | none => .error .malformed
  | some v =>
    match ofJson? v with
    | none => .error .malformed
    | some c => c.validate

def load (files : Files) (path : String) : Except ConfigurationError Configuration :=
  match files.readText path with
  | .ok text => ofText text
  | .error e => .error (.file e)

def toJson (c : Configuration) : Json :=
  .record [("timer_period_ms", .natural c.timerPeriodMs.toNat),
    ("keyboard_line", .natural c.keyboardLine.toNat),
    ("cycle_delay_us", .natural c.cycleDelayUs.toNat),
    ("max_cycles", match c.maxCycles with
      | some n => .natural n.toNat
      | none => .null),
    ("trace", .bool c.trace)]

/-- The configuration as the text it can be read from. -/
def text (c : Configuration) : String := c.toJson.compact

theorem validate_eq_ok_iff (c d : Configuration) :
    c.validate = .ok d ↔ c = d ∧ IsKeyboardLine c.keyboardLine := by
  unfold validate
  split <;> simp_all

/-- A configuration that was read has a valid keyboard line. -/
theorem isKeyboardLine_of_ofText {text : String} {c : Configuration} (h : ofText text = .ok c) :
    IsKeyboardLine c.keyboardLine := by
  unfold ofText at h
  split at h
  · simp at h
  · split at h
    · simp at h
    · obtain ⟨rfl, hk⟩ := (validate_eq_ok_iff _ _).1 h
      exact hk

end Configuration

end Microcomputer
