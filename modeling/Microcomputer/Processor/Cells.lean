import Microcomputer.Processor.Step

/-!
The cells that the processor reads and writes. A memory with a cell for every address never misses one of
them; with a shorter one, a program is aborted where it comes to a cell that is missing.

The cells are listed in the order in which they are come to. What is checked before it is done, like the room
for a byte on the stack, touches no cell if it is refused.
-/

namespace Microcomputer

namespace Memory

/-- The cells that bytes written from `a` on go to. -/
def writtenCells (a : UInt8) : List UInt8 → List UInt8
  | [] => []
  | _ :: rest => a :: writtenCells (a + 1) rest

end Memory

namespace Processor

/-- The cells that a step fetches. -/
def fetchedCells (p : Processor) : List UInt8 := [p.pc, p.pc + 1, p.pc + 2]

def pushedCells (p : Processor) : List UInt8 := if p.stackRoom = 0 then [] else [p.sp - 1]

def poppedCells (p : Processor) : List UInt8 := if p.stackDepth = 0 then [] else [p.sp]

/-- The cells to which the slots are pushed, as far as there is room. -/
def pushedSlots (slots : List Slot) (p : Processor) : List UInt8 :=
  match slots with
  | [] => []
  | slot :: rest =>
    p.pushedCells ++
      match p.push (slot.get p) with
      | (_, some _) => []
      | (q, none) => pushedSlots rest q

def savedCells (p : Processor) : List UInt8 :=
  if p.stackRoom < contextSize then [] else pushedSlots Slot.context p

/-- The cells from which the slots are popped, as far as the stack goes. -/
def poppedSlots (slots : List Slot) (p : Processor) : List UInt8 :=
  match slots with
  | [] => []
  | slot :: rest =>
    p.poppedCells ++
      match p.pop with
      | (_, .error _) => []
      | (q, .ok v) => poppedSlots rest (slot.set v q)

def restoredCells (p : Processor) : List UInt8 :=
  if p.stackDepth < contextSize then [] else poppedSlots Slot.context.reverse p

/-- The cells that an instruction reads and writes, apart from its own. -/
def executedCells (p : Processor) (i : Instruction Register) : List UInt8 :=
  let r := p.registers
  match i with
  | .load _ address => [r.get address]
  | .store address _ => if r.get address = keyAddress then [] else [r.get address]
  | .push _ | .call _ => p.pushedCells
  | .pop _ | .ret => p.poppedCells
  | .interruptReturn => p.restoredCells
  | .printText first last => addressRange (r.get first) (r.get last)
  | _ => []

def dispatchedCells (p : Processor) : List UInt8 :=
  match p.interrupts.nextLine? p.registers.mask with
  | none => []
  | some line =>
    p.savedCells ++
      match p.saveContext with
      | (_, some _) => []
      | (_, none) => [Memory.vectorCell line]

def boundaryCells (p : Processor) : List UInt8 := if p.state = .running then p.dispatchedCells else []

def stepCells (p : Processor) : List UInt8 :=
  if p.state = .running then
    p.fetchedCells ++
      match p.memory.decodeAt p.pc with
      | .error _ => []
      | .ok i =>
        p.executedCells i ++
          match p.execute i with
          | .failed _ _ => []
          | .completed q next _ => (q.retire i next).boundaryCells
  else []

/-- The cells of at most `n` steps, ended early by a halt or a fault. -/
def runCells (n : Nat) (p : Processor) : List UInt8 :=
  match n with
  | 0 => []
  | n + 1 =>
    if p.state = .running then
      p.stepCells ++
        match p.step.result with
        | .ok _ => runCells n p.step.processor
        | .error _ => []
    else []

end Processor

end Microcomputer
