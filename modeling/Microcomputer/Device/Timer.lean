/-!
The periodic timer. It adds up the time that passes, in nanoseconds, and fires when a whole period has
come together; several periods at once are one firing, and what is left over counts towards the next.
A period of zero switches the timer off.

A span of time holds fewer than `2^64` seconds, and an instant lies fewer than `2^63 - 1` seconds after the
clock's origin. `Holds` says that the timer can take in a further span; `advance?` and `poll?` refuse one
that it cannot. A timer whose period is a count of milliseconds in 64 bits can take every poll
(`poll?_eq_some`), whatever it was made to do before.

The firings are counted in 64 bits. Where overflow is checked the program aborts at the firing that would make
them `2^64`; here the count begins again at zero.
-/

namespace Microcomputer

/-- Nanoseconds in a second. -/
def second : Nat := 1000000000

/-- No span of time is this long. -/
def spanLimit : Nat := UInt64.size * second

/-- No instant is this late. -/
def instantLimit : Nat := (UInt64.size / 2 - 1) * second

/-- An instant, by the time since the clock's origin. -/
structure Instant where
  nanoseconds : Nat
  early : nanoseconds < instantLimit
  deriving DecidableEq, Repr

namespace Instant

def origin : Instant := ⟨0, by decide⟩

/-- The instant that lies so long after the origin, if there is one. -/
def ofNanoseconds? (n : Nat) : Option Instant :=
  if h : n < instantLimit then some ⟨n, h⟩ else none

end Instant

/-- The span of some seconds and nanoseconds, unless it is too long. -/
def span? (seconds nanoseconds : Nat) : Option Nat :=
  let span := seconds * second + nanoseconds
  if span < spanLimit then some span else none

/-- A span of time as whole seconds and the nanoseconds past them. -/
def secondsAndRest (span : Nat) : Nat × Nat := (span / second, span % second)

structure Timer where
  period : Nat
  /-- Time gathered towards the next firing. -/
  elapsed : Nat
  /-- The instant of the last poll. -/
  lastPoll : Option Nat
  /-- Firings, modulo `2^64`. -/
  ticks : UInt64
  /-- A whole period never stays gathered, and a timer that is off gathers nothing. -/
  short : elapsed = 0 ∨ elapsed < period
  deriving DecidableEq, Repr

namespace Timer

def ofPeriod (period : Nat) : Timer := ⟨period, 0, none, 0, .inl rfl⟩

/-- The longest period of a machine's timer: the milliseconds are counted in 64 bits. -/
def longestPeriod : Nat := (UInt64.size - 1) * 1000000

def defaultPeriod : Nat := second

def reset (t : Timer) : Timer := ofPeriod t.period

def Holds (t : Timer) (span : Nat) : Prop := t.period = 0 ∨ t.elapsed + span < spanLimit

instance (t : Timer) (span : Nat) : Decidable (t.Holds span) := inferInstanceAs (Decidable (_ ∨ _))

/-- Lets time pass, and whether the timer fired. What is left over after a firing is kept in 64 bits. -/
def advance (t : Timer) (span : Nat) : Bool × Timer :=
  if hoff : t.period = 0 then (false, t)
  else if hshort : t.elapsed + span < t.period then
    (false, { t with elapsed := t.elapsed + span, short := .inr hshort })
  else
    (true, { t with
      elapsed := (t.elapsed + span) % t.period % UInt64.size
      ticks := t.ticks + 1
      short := .inr (Nat.lt_of_le_of_lt (Nat.mod_le _ _) (Nat.mod_lt _ (Nat.pos_of_ne_zero hoff))) })

/-- The time since the last poll; none at the first poll, nor at an instant before the last. -/
def sinceLastPoll (t : Timer) (now : Nat) : Nat :=
  match t.lastPoll with
  | some last => now - last
  | none => 0

/-- Lets the time since the last poll pass. -/
def poll (t : Timer) (now : Nat) : Bool × Timer :=
  ({ t with lastPoll := some now } : Timer).advance (t.sinceLastPoll now)

def advance? (t : Timer) (span : Nat) : Option (Bool × Timer) :=
  if t.Holds span then some (t.advance span) else none

def poll? (t : Timer) (now : Nat) : Option (Bool × Timer) :=
  if now < instantLimit ∧ t.Holds (t.sinceLastPoll now) then some (t.poll now) else none

@[simp] theorem period_advance (t : Timer) (span : Nat) : (t.advance span).2.period = t.period := by
  unfold advance
  split
  · rfl
  · split <;> rfl

/-- The timer counts its firings. -/
theorem ticks_advance (t : Timer) (span : Nat) :
    (t.advance span).2.ticks = t.ticks + (t.advance span).1.toUInt64 := by
  unfold advance
  split
  · exact (UInt64.add_zero _).symm
  · split
    · exact (UInt64.add_zero _).symm
    · rfl

@[simp] theorem lastPoll_advance (t : Timer) (span : Nat) : (t.advance span).2.lastPoll = t.lastPoll := by
  unfold advance
  split
  · rfl
  · split <;> rfl

theorem advance_off (t : Timer) (span : Nat) (h : t.period = 0) : t.advance span = (false, t) := by
  simp [advance, h]

/-- Without time there is no firing. -/
theorem advance_zero (t : Timer) : t.advance 0 = (false, t) := by
  rcases Nat.eq_zero_or_pos t.period with hoff | hon
  · exact advance_off t 0 hoff
  · have hshort : t.elapsed + 0 < t.period := by
      have hgathered := t.short
      omega
    rw [advance, dif_neg (Nat.ne_of_gt hon), dif_pos hshort]
    rfl

@[simp] theorem period_poll (t : Timer) (now : Nat) : (t.poll now).2.period = t.period :=
  period_advance _ _

theorem sinceLastPoll_le (t : Timer) (now : Nat) : t.sinceLastPoll now ≤ now := by
  unfold sinceLastPoll
  split
  · exact Nat.sub_le _ _
  · exact Nat.zero_le _

/-- A timer of a machine can take every poll: what it has gathered and the time since the clock's origin make
a span together. -/
theorem poll?_eq_some {t : Timer} (h : t.period ≤ longestPeriod) (now : Instant) :
    t.poll? now.nanoseconds = some (t.poll now.nanoseconds) := by
  have hearly := now.early
  have hsince := t.sinceLastPoll_le now.nanoseconds
  have hroom : t.elapsed + t.sinceLastPoll now.nanoseconds < spanLimit := by
    have hshort := t.short
    unfold longestPeriod at h
    unfold instantLimit second at hearly
    unfold spanLimit second
    simp only [UInt64.size] at *
    omega
  exact if_pos ⟨hearly, .inr hroom⟩

end Timer

end Microcomputer
