import Microcomputer.Printout
import Microcomputer.Processor.Stack

/-!
Executing one instruction. The interrupts that may be served after it are not part of this: `execute`
says what the instruction itself does to registers, memory and interrupt lines, where execution goes on,
and what is printed.

Every instruction but the return from an interrupt checks all that can fail before it changes anything.
-/

namespace Microcomputer

/-- What executing an instruction comes to. -/
inductive Execution
  /-- The instruction completed; execution goes on at `next`. -/
  | completed (processor : Processor) (next : UInt8) (printed : Option Printed)
  /-- The instruction failed and left the processor so. -/
  | failed (processor : Processor) (fault : Fault)
  deriving DecidableEq, Repr

namespace Processor

/-- The addresses between two registers' values, both included. -/
def addressRange (first last : UInt8) : List UInt8 :=
  (List.range (last.toNat + 1 - first.toNat)).map fun i => first + UInt8.ofNat i

theorem addressRange_eq (first last : UInt8) :
    addressRange first last =
      (List.range' first.toNat (last.toNat + 1 - first.toNat)).map UInt8.ofNat := by
  rw [addressRange, List.range'_eq_map_range, List.map_map]
  refine List.map_congr_left fun k _ => ?_
  rw [Function.comp_apply, UInt8.ofNat_add, UInt8.ofNat_toNat]

theorem mem_addressRange {a first last : UInt8} :
    a ∈ addressRange first last ↔ first.toNat ≤ a.toNat ∧ a.toNat ≤ last.toNat := by
  have hlast := last.toNat_lt
  rw [addressRange_eq, List.mem_map]
  constructor
  · rintro ⟨k, hk, rfl⟩
    rw [List.mem_range'_1] at hk
    rw [UInt8.toNat_ofNat', Nat.mod_eq_of_lt (by omega)]
    omega
  · intro h
    refine ⟨a.toNat, ?_, UInt8.ofNat_toNat⟩
    rw [List.mem_range'_1]
    omega

/-- A range that does not reach the last address begins with its first one. -/
theorem addressRange_cons {first last : UInt8} (h : first.toNat ≤ last.toNat) (hlast : last.toNat < 255) :
    addressRange first last = first :: addressRange (first + 1) last := by
  have hone : (1 : UInt8).toNat = 1 := rfl
  have hnext : (first + 1).toNat = first.toNat + 1 := by
    rw [UInt8.toNat_add, hone]
    omega
  have hsize : last.toNat + 1 - first.toNat = last.toNat + 1 - (first.toNat + 1) + 1 := by omega
  rw [addressRange_eq, addressRange_eq, hnext, hsize, List.range'_succ, List.map_cons, UInt8.ofNat_toNat]

/-- Executes an instruction that stands at the program counter. -/
def execute (p : Processor) (i : Instruction Register) : Execution :=
  let r := p.registers
  let next := r.pc + UInt8.ofNat i.length
  match i with
  | .nop => .completed p next none
  | .halt => .completed { p with state := .halted } next none
  | .loadImmediate target v => .completed (p.setRegister target v) next none
  | .load target address =>
    .completed (p.setRegister target (p.memory.read (r.get address))) next none
  | .store address source =>
    if r.get address = keyAddress then .completed p next none
    else .completed (p.write (r.get address) (r.get source)) next none
  | .alu op target source =>
    match op.compute (r.get target) (r.get source) with
    | .ok (.value v) => .completed (p.setRegister target v) next none
    | .ok (.flags f) => .completed (p.setFlags f) next none
    | .error .divisionByZero => .failed p (.divisionByZero r.pc)
  | .addImmediate target v => .completed (p.setRegister target (r.get target + v)) next none
  | .push source =>
    match p.push (r.get source) with
    | (q, none) => .completed q next none
    | (q, some f) => .failed q f
  | .pop target =>
    match p.pop with
    | (q, .ok v) => .completed (q.setRegister target v) next none
    | (q, .error f) => .failed q f
  | .call address =>
    match p.push next with
    | (q, none) => .completed q (r.get address) none
    | (q, some f) => .failed q f
  | .ret =>
    match p.pop with
    | (q, .ok v) => .completed q v none
    | (q, .error f) => .failed q f
  | .jump condition address =>
    .completed p (if condition.holds r.flags then r.get address else next) none
  | .interrupt line => .completed (p.raise (r.get line)) next none
  | .interruptReturn =>
    match p.restoreContext with
    | (q, none) => .completed { q with interrupts := q.interrupts.leave } q.pc none
    | (q, some f) => .failed q f
  | .printNumber source => .completed p next (some (.ofSigned (r.get source)))
  | .printChar source => .completed p next (some (.char (charOfByte (r.get source))))
  | .printText first last =>
    .completed p next
      (some (.ofBytes ((addressRange (r.get first) (r.get last)).map p.memory.read)))

end Processor

end Microcomputer
