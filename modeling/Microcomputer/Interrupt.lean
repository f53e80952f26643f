/-!
The interrupt controller: eight lines with one pending bit each, and a flag that is set while a handler
runs. Pending is a bit, not a counter. Line numbers are taken modulo eight. The line to serve next is the
lowest one that is pending and not masked out, and there is none while a handler runs.
-/

namespace Microcomputer

/-- The line of the timer. -/
def timerLine : UInt8 := 0

structure InterruptController where
  /-- One pending bit for each line. -/
  status : UInt8
  /-- Set from the entry into a handler until its return. -/
  servicing : Bool
  deriving DecidableEq, Repr

inductive InterruptPhase
  | idle | pending | servicing
  deriving DecidableEq, Repr

def InterruptPhase.name : InterruptPhase → String
  | .idle => "Idle"
  | .pending => "Pending"
  | .servicing => "Servicing"

namespace InterruptController

def quiet : InterruptController := ⟨0, false⟩

def lines : List UInt8 := [0, 1, 2, 3, 4, 5, 6, 7]

def lineBit (line : UInt8) : UInt8 := 1 <<< (line % 8)

def isPending (c : InterruptController) (line : UInt8) : Bool := c.status &&& lineBit line != 0

def raise (c : InterruptController) (line : UInt8) : InterruptController :=
  { c with status := c.status ||| lineBit line }

/-- The line to serve next under a mask. -/
def nextLine? (c : InterruptController) (mask : UInt8) : Option UInt8 :=
  if c.servicing then none else lines.find? fun line => c.status &&& mask &&& lineBit line != 0

/-- Enters the handler of a line. -/
def enter (c : InterruptController) (line : UInt8) : InterruptController :=
  ⟨c.status &&& ~~~lineBit line, true⟩

/-- Leaves the handler. -/
def leave (c : InterruptController) : InterruptController := { c with servicing := false }

def phase (c : InterruptController) : InterruptPhase :=
  if c.servicing then .servicing else if c.status = 0 then .idle else .pending

@[simp] theorem servicing_raise (c : InterruptController) (line : UInt8) :
    (c.raise line).servicing = c.servicing := rfl

@[simp] theorem nextLine?_servicing (c : InterruptController) (mask : UInt8) (h : c.servicing) :
    c.nextLine? mask = none := by
  simp [nextLine?, h]

end InterruptController

end Microcomputer
