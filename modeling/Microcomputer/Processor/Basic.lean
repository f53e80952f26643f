import Microcomputer.Interrupt
import Microcomputer.Memory
import Microcomputer.Processor.Fault

/-!
The processor: registers, memory, interrupt controller and run state, and what devices may do to it between
two instructions.
-/

namespace Microcomputer

structure Processor where
  registers : RegisterFile
  memory : Memory
  interrupts : InterruptController
  state : RunState
  /-- Instructions completed, modulo `2^64`. -/
  cycles : UInt64
  /-- The fault that stopped the processor, if one did. -/
  fault : Option Fault
  /-- First address past the loaded image. The stack does not grow below it. -/
  programEnd : UInt8
  /-- The last instruction that completed. A restored one may name any register byte. -/
  lastInstruction : Option (Instruction UInt8)
  deriving DecidableEq, Repr

namespace Processor

def powerOn : Processor where
  registers := .powerOn
  memory := .zero
  interrupts := .quiet
  state := .running
  cycles := 0
  fault := none
  programEnd := 0
  lastInstruction := none

/-- Back to power-on, every memory cell cleared. -/
def reset (p : Processor) : Processor := { powerOn with memory := p.memory.clear }

def sp (p : Processor) : UInt8 := p.registers.sp
def pc (p : Processor) : UInt8 := p.registers.pc

def isRunning (p : Processor) : Bool := p.state = .running
def isHalted (p : Processor) : Bool := p.state = .halted
def isFaulted (p : Processor) : Bool := p.state = .faulted

def setRegister (p : Processor) (r : Register) (v : UInt8) : Processor :=
  { p with registers := p.registers.set r v }

def setPc (p : Processor) (v : UInt8) : Processor := { p with registers.pc := v }

def setFlags (p : Processor) (f : Flags) : Processor := { p with registers.flags := f }

def write (p : Processor) (a v : UInt8) : Processor := { p with memory := p.memory.write a v }

def writeAll (p : Processor) (a : UInt8) (bytes : List UInt8) : Processor :=
  { p with memory := p.memory.writeAll a bytes }

/-- Resets and copies an image to address 0. A refused image leaves the processor reset all the same. -/
def load (p : Processor) (image : List UInt8) : Processor × Except ImageTooLarge Unit :=
  match p.reset.memory.load image with
  | .ok memory => ({ p.reset with memory, programEnd := UInt8.ofNat image.length }, .ok ())
  | .error e => (p.reset, .error e)

/-- Marks an interrupt line pending. -/
def raise (p : Processor) (line : UInt8) : Processor :=
  { p with interrupts := p.interrupts.raise line }

/-- A key arrives: it is latched in its cell and raises the keyboard's line. -/
def press (p : Processor) (key line : UInt8) : Processor := (p.write keyAddress key).raise line

/-- The timer was polled: a firing raises its line. -/
def raiseTimer (p : Processor) (fired : Bool) : Processor := if fired then p.raise timerLine else p

/-- Stops at a fault and changes nothing else. -/
def stop (p : Processor) (f : Fault) : Processor := { p with state := .faulted, fault := some f }

@[simp] theorem registers_raise (p : Processor) (line : UInt8) :
    (p.raise line).registers = p.registers := rfl

@[simp] theorem memory_raise (p : Processor) (line : UInt8) : (p.raise line).memory = p.memory := rfl

@[simp] theorem registers_press (p : Processor) (key line : UInt8) :
    (p.press key line).registers = p.registers := rfl

theorem read_press (p : Processor) (key line a : UInt8) :
    (p.press key line).memory.read a = if keyAddress = a then key else p.memory.read a := by
  simp [press, write, Memory.read_write]

end Processor

end Microcomputer
