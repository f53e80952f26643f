import Microcomputer.Processor.Basic

/-!
The stack. It grows down from `stackTop` with register 7 as its pointer: a push decrements first, a pop
increments last. It may use every cell from the end of the image up to, but not including, `stackTop`;
crossing either bound is a fault, never a wrap. Every operation of the stack gives the processor that it
leaves, a refused one too.

An interrupt saves ten bytes of context and its return takes them back in reverse order. The first byte
taken back replaces the pointer that the other nine are popped through.
-/

namespace Microcomputer

/-- What a byte of saved context restores. -/
inductive Slot
  | pc
  | flags
  | register (r : Register)
  deriving DecidableEq, Repr

namespace Slot

/-- The saved context in the order of its pushes. -/
def context : List Slot := .pc :: .flags :: Register.all.map .register

def get (s : Slot) (p : Processor) : UInt8 :=
  match s with
  | pc => p.pc
  | flags => p.registers.flags.bits
  | register r => p.registers.get r

def set (s : Slot) (v : UInt8) (p : Processor) : Processor :=
  match s with
  | pc => p.setPc v
  | flags => p.setFlags ⟨v⟩
  | register r => p.setRegister r v

end Slot

namespace Processor

/-- Bytes that an interrupt saves. -/
def contextSize : Nat := Slot.context.length

/-- Free cells between the image and the pointer; none while the pointer stands above the stack. -/
def stackRoom (p : Processor) : Nat :=
  if stackTop < p.sp then 0 else p.sp.toNat - p.programEnd.toNat

/-- Bytes on the stack. -/
def stackDepth (p : Processor) : Nat := stackTop.toNat - p.sp.toNat

/-- Pushes a byte: the processor reached, and the fault if there is no room. -/
def push (p : Processor) (v : UInt8) : Processor × Option Fault :=
  if p.stackRoom = 0 then (p, some (.stackOverflow p.sp))
  else ((p.setRegister .stackPointer (p.sp - 1)).write (p.sp - 1) v, none)

/-- Pops a byte: the processor reached, and the byte or the fault if the stack is empty. -/
def pop (p : Processor) : Processor × Except Fault UInt8 :=
  if p.stackDepth = 0 then (p, .error (.stackUnderflow p.sp))
  else (p.setRegister .stackPointer (p.sp + 1), .ok (p.memory.read p.sp))

/-- Pushes the slots one after the other, as far as there is room: the processor reached, and the fault if
one ended it early. -/
def pushSlots (slots : List Slot) (p : Processor) : Processor × Option Fault :=
  match slots with
  | [] => (p, none)
  | slot :: rest =>
    match p.push (slot.get p) with
    | (q, some f) => (q, some f)
    | (q, none) => pushSlots rest q

/-- Saves the context. Room for all of it is asked for first. -/
def saveContext (p : Processor) : Processor × Option Fault :=
  if p.stackRoom < contextSize then (p, some (.stackOverflow p.sp)) else pushSlots Slot.context p

/-- Pops a byte into each slot, as far as the stack goes: the processor reached, and the fault if one
ended it early. -/
def popSlots (slots : List Slot) (p : Processor) : Processor × Option Fault :=
  match slots with
  | [] => (p, none)
  | slot :: rest =>
    match p.pop with
    | (q, .error f) => (q, some f)
    | (q, .ok v) => popSlots rest (slot.set v q)

/-- Takes the context back. The depth is asked for only once, before the pointer itself is restored, so a
fault may come after some of the slots were taken back. -/
def restoreContext (p : Processor) : Processor × Option Fault :=
  if p.stackDepth < contextSize then (p, some (.stackUnderflow p.sp))
  else popSlots Slot.context.reverse p

theorem contextSize_eq : contextSize = 10 := rfl

/-- A push that finds no room leaves the processor as it was. -/
theorem push_of_full {p : Processor} (h : p.stackRoom = 0) (v : UInt8) :
    p.push v = (p, some (.stackOverflow p.sp)) := if_pos h

/-- A pop of an empty stack leaves the processor as it was. -/
theorem pop_of_empty {p : Processor} (h : p.stackDepth = 0) :
    p.pop = (p, .error (.stackUnderflow p.sp)) := if_pos h

theorem push_refused_iff (p : Processor) (v : UInt8) (f : Fault) :
    (p.push v).2 = some f ↔ p.stackRoom = 0 ∧ f = .stackOverflow p.sp := by
  unfold push
  split <;> simp_all [eq_comm]

theorem pop_refused_iff (p : Processor) (f : Fault) :
    p.pop.2 = .error f ↔ p.stackDepth = 0 ∧ f = .stackUnderflow p.sp := by
  unfold pop
  split <;> simp_all [eq_comm]

end Processor

end Microcomputer
