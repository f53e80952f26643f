import Microcomputer.Proofs.FailedReturn

/-!
Taking a context back from arbitrary memory.

Nothing says that the bytes on the stack were put there by an interrupt. The pointer that a return finds is
used for one byte, the saved pointer. All the others come from the nine cells from the saved pointer on,
wherever these are, and the pointer is left just above them.

* `Memory.contextAt` is the register file that nine cells make, and `get_of_contextAt` its slots.
* `restored_of_low`: what is taken back through a saved pointer with nine cells of stack above it.
* `restored_setSp`: two pointers at which the same saved pointer stands are as good as each other, when the
  return fails too.
* `restored_through_savedPointer` puts these together with the two ways in which a return fails.
-/

namespace Microcomputer

/-- The register file whose context stands from `a` on: registers 6 down to 0, the flags and the program
counter. The pointer stands just above them, and the last opcode is not part of a context. -/
def Memory.contextAt (m : Memory) (a ir : UInt8) : RegisterFile where
  bank := Vector.ofFn fun r : Register => if r = .stackPointer then a + 9 else m.read (a + 6 - r.toByte)
  pc := m.read (a + 8)
  ir
  flags := ⟨m.read (a + 7)⟩

theorem Memory.get_contextAt (m : Memory) (a ir : UInt8) (r : Register) :
    (m.contextAt a ir).get r = if r = .stackPointer then a + 9 else m.read (a + 6 - r.toByte) := by
  simp [RegisterFile.get, contextAt]

/-- Each slot of such a register file is the byte at its offset below the pointer. -/
theorem Slot.get_of_contextAt {q : Processor} {m : Memory} {a ir : UInt8}
    (h : q.registers = m.contextAt a ir) (s : Slot) :
    s.get q = if s = Slot.pointer then a + 9 else m.read (a + 9 - s.offset) := by
  cases s with
  | pc =>
    show q.registers.pc = m.read (a + 9 - 1)
    rw [h, show a + 9 - 1 = a + 8 by grind]
    rfl
  | flags =>
    show q.registers.flags.bits = m.read (a + 9 - 2)
    rw [h, show a + 9 - 2 = a + 7 by grind]
    rfl
  | register r =>
    show q.registers.get r = if Slot.register r = Slot.register .stackPointer then a + 9
      else m.read (a + 9 - (r.toByte + 3))
    rw [h, m.get_contextAt, show a + 9 - (r.toByte + 3) = a + 6 - r.toByte by grind]
    simp only [Slot.register.injEq]

namespace Processor

/-- With nine cells of stack above the saved pointer, these make the registers. All else stays as it is. -/
theorem restored_of_low {p : Processor} (hdepth : 10 ≤ p.stackDepth) (hsaved : p.savedPointer.toNat ≤ 0xEA) :
    p.restoreContext =
      ({ p with registers := p.memory.contextAt p.savedPointer p.registers.ir }, none) := by
  obtain ⟨hok, hsp, hslots⟩ := p.restoreContext_spec hdepth hsaved
  have hsame := sameBesideRegisters_restoreContext p
  let q : Processor := { p with registers := p.memory.contextAt p.savedPointer p.registers.ir }
  have hregisters : p.restoreContext.1.registers = q.registers := by
    refine Slot.registers_eq (fun s => ?_) hsame.ir
    rw [Slot.get_of_contextAt (q := q) rfl s]
    split
    · next hs =>
      subst hs
      exact hsp
    · next hs => exact hslots s hs
  refine Prod.ext ?_ hok
  rw [hsame.eq, hregisters]

/-- The pointer that a return finds matters through the byte in its cell only. -/
theorem restored_setSp {p : Processor} {a : UInt8} (hdepth : 10 ≤ p.stackDepth)
    (hother : 10 ≤ (p.setSp a).stackDepth) (hsaved : (p.setSp a).savedPointer = p.savedPointer) :
    (p.setSp a).restoreContext = p.restoreContext := by
  rw [restoreContext_of_deep hother, restoreContext_of_deep hdepth]
  show popSlots Slot.beside ((p.setSp a).setSp (p.setSp a).savedPointer) =
    popSlots Slot.beside (p.setSp p.savedPointer)
  rw [setSp_setSp, hsaved]

/-- With ten bytes on the stack the context comes back exactly if the saved pointer has nine cells of stack
above it. It then comes from those nine cells, and nothing but the registers changes. Whatever comes of it
depends on the pointer only through the saved one. With fewer bytes on the stack nothing is taken back. -/
theorem restored_through_savedPointer (p : Processor) :
    (10 ≤ p.stackDepth →
      (p.restoreContext.2 = none ↔ p.savedPointer.toNat ≤ 0xEA) ∧
      (p.savedPointer.toNat ≤ 0xEA →
        p.restoreContext =
          ({ p with registers := p.memory.contextAt p.savedPointer p.registers.ir }, none)) ∧
      ∀ a, 10 ≤ (p.setSp a).stackDepth → (p.setSp a).savedPointer = p.savedPointer →
        (p.setSp a).restoreContext = p.restoreContext) ∧
    (p.stackDepth < 10 → p.restoreContext = (p, some (.stackUnderflow p.sp))) := by
  refine ⟨fun hdepth => ⟨?_, restored_of_low hdepth, fun a => restored_setSp hdepth⟩,
    restoreContext_of_shallow⟩
  rw [restoreContext_eq_none_iff]
  exact and_iff_right hdepth

/-- No interrupt came. The program keeps `0xEA` at `0x80` and at `0x90` and `0xEB` at `0xA0`, and has filled
the top nine cells of the stack. -/
def forged : Processor where
  registers := ⟨#v[1, 2, 3, 4, 5, 6, 7, 0x80], 9, 0x13, ⟨0⟩⟩
  memory := (((Memory.zero.writeAll 0xEA [16, 15, 14, 13, 12, 11, 10, 4, 0x55]).write 0x80 0xEA).write
    0x90 0xEA).write 0xA0 0xEB
  interrupts := ⟨6, true⟩
  state := .running
  cycles := 7
  fault := none
  programEnd := 0x20
  lastInstruction := none

/-- Through both cells with `0xEA` the pointer leaps to the stack's top; through the one with `0xEB` and from
the empty stack there is no return. -/
theorem forged_restored :
    (forged.restoreContext =
        ({ forged with registers := ⟨#v[10, 11, 12, 13, 14, 15, 16, 0xF3], 0x55, 0x13, ⟨4⟩⟩ }, none) ∧
      (forged.setSp 0x90).restoreContext = forged.restoreContext ∧
      (forged.setSp 0xA0).restoreContext.2 ≠ none) ∧
    powerOn.restoreContext = (powerOn, some (.stackUnderflow 0xF3)) := by
  obtain ⟨-, htaken, hother⟩ := (restored_through_savedPointer forged).1 (by decide)
  obtain ⟨hlow, -⟩ := (restored_through_savedPointer (forged.setSp 0xA0)).1 (by decide)
  refine ⟨⟨?_, hother 0x90 (by decide) (by decide), ?_⟩, (restored_through_savedPointer powerOn).2 (by decide)⟩
  · rw [htaken (by decide)]
    rfl
  · rw [ne_eq, hlow]
    decide

end Processor

end Microcomputer
