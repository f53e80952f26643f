import Microcomputer.Proofs.Dispatch

/-!
A subroutine returns to where it was called.

A call leaves its return address in the cell below the pointer. `SparesCell` says of an instruction that
neither it nor the interrupt after it writes a cell, `read_step_of_sparesCell` that the cell then keeps what
it holds, and `return_follows_call` that a subroutine along which this is so returns, however deep it calls
and whatever interrupts it.
-/

namespace Microcomputer

namespace Processor

section

variable {p done : Processor} {i : Instruction Register} {printed : Option Printed} {cell : UInt8}

/-- The instruction does not store to the cell, and every push, its own and those that save the context
after it, is made at a pointer that does not stand above the cell. -/
structure SparesCell (cell : UInt8) (p : Processor) (i : Instruction Register) : Prop where
  store : ∀ address source, i = .store address source → p.registers.get address ≠ cell
  push : (∃ r, i = .push r ∨ i = .call r) → p.sp.toNat ≤ cell.toNat
  serve : ∀ printed done line, p.Completes i printed done → done.Serves line →
    done.sp.toNat ≤ cell.toNat

/-- A push at a pointer that does not stand above a cell of the stack writes another cell. -/
theorem pred_sp_ne (hcell : cell.toNat < stackTop.toNat) (hsp : p.sp.toNat ≤ cell.toNat) :
    p.sp - 1 ≠ cell := by
  have hone : (1 : UInt8).toNat = 1 := rfl
  have htop : stackTop.toNat = 0xF3 := rfl
  rintro rfl
  rw [UInt8.toNat_sub] at hcell hsp
  omega

theorem SparesCell.written?_ne (h : SparesCell cell p i) (hcell : cell.toNat < stackTop.toNat) :
    p.written? i ≠ some cell := by
  cases i with
  | store address source =>
    have hne := h.store address source rfl
    simp only [written?]
    split
    · simp
    · simpa using hne
  | push source =>
    have hne := pred_sp_ne hcell (h.push ⟨source, .inl rfl⟩)
    simpa [written?] using hne
  | call address =>
    have hne := pred_sp_ne hcell (h.push ⟨address, .inr rfl⟩)
    simpa [written?] using hne
  | _ => simp [written?]

/-- The interrupt after an instruction leaves alone every cell that the pointer does not stand above. -/
theorem read_step_of_completes (h : p.Completes i printed done)
    (hserve : ∀ line, done.Serves line → done.sp.toNat ≤ cell.toNat) :
    p.step.processor.memory.read cell = done.memory.read cell := by
  rcases done.idle_or_serves with hidle | ⟨line, hserves⟩
  · rw [step_of_idle h hidle]
  · rcases Nat.lt_or_ge done.stackRoom 10 with hfull | hroom
    · rw [step_of_full h hserves hfull]
      rfl
    · obtain ⟨-, hend⟩ := (done.le_stackRoom_iff (by decide)).mp hroom
      rw [step_of_room h hserves hroom]
      exact done.read_saved_of_far cell (by omega) (.inr (hserve line hserves))

theorem read_step_of_sparesCell (hcell : cell.toNat < stackTop.toNat) (hok : p.step.result = .ok i)
    (h : SparesCell cell p i) : p.step.processor.memory.read cell = p.memory.read cell := by
  obtain ⟨done, hdone, -⟩ := completes_of_step hok
  rw [read_step_of_completes hdone fun line => h.serve _ done line hdone]
  obtain ⟨q, next, heffect, rfl⟩ := effect_of_completes hdone
  exact heffect.memory cell (h.written?_ne hcell)

/-- What stands in a cell of the stack stays there along a run that spares the cell. -/
theorem read_run_of_sparesCell {q : Processor} (hcell : cell.toNat < stackTop.toNat)
    (h : Run (SparesCell cell) p q) : q.memory.read cell = p.memory.read cell := by
  have hkey : keyAddress ≠ cell := by
    rintro rfl
    exact absurd hcell (by decide)
  have hstep (r : Processor) (i : Instruction Register) (hr : r.memory.read cell = p.memory.read cell)
      (hok : r.step.result = .ok i) (hi : SparesCell cell r i) :
      r.step.processor.memory.read cell = p.memory.read cell := by
    rw [read_step_of_sparesCell hcell hok hi, hr]
  have hpress (r : Processor) (key line : UInt8) (hr : r.memory.read cell = p.memory.read cell) :
      (r.press key line).memory.read cell = p.memory.read cell := by
    rw [read_press, if_neg hkey, hr]
  exact h.keeps hstep (fun _ _ hr => hr) (fun r key line hr => hpress r key line hr) rfl

end

theorem push_of_room {p : Processor} (h : 1 ≤ p.stackRoom) (v : UInt8) :
    p.push v = ((p.setSp (p.sp - 1)).write (p.sp - 1) v, none) := by
  have hne : p.stackRoom ≠ 0 := by omega
  exact if_neg hne

/-- A call leaves the address after it in the cell below the pointer. -/
theorem completes_call {p : Processor} {r : Register} (hrun : p.state = .running)
    (hdecode : p.memory.decodeAt p.pc = .ok (.call r)) (hroom : 1 ≤ p.stackRoom) :
    ∃ done, p.Completes (.call r) none done ∧ done.sp = p.sp - 1 ∧
      done.memory.read (p.sp - 1) = p.pc + 2 := by
  have hlength : (Instruction.call r).length = 2 := by
    simp only [Instruction.length, Instruction.opcode]
    decide
  have hexec : p.execute (.call r) =
      .completed ((p.setSp (p.sp - 1)).write (p.sp - 1) (p.pc + 2)) (p.registers.get r) none := by
    simp only [execute, hlength, push_of_room hroom]
    rfl
  exact ⟨_, ⟨hrun, hdecode, _, _, hexec, rfl⟩, sp_setSp _ _, Memory.read_write_self _ _ _⟩

/-- A return goes on at the address in the cell at the pointer. -/
theorem completes_ret {p : Processor} (hrun : p.state = .running)
    (hdecode : p.memory.decodeAt p.pc = .ok .ret) (hdepth : 1 ≤ p.stackDepth) :
    ∃ done, p.Completes .ret none done ∧ done.sp = p.sp + 1 ∧ done.pc = p.memory.read p.sp := by
  have hexec : p.execute .ret = .completed (p.setSp (p.sp + 1)) (p.memory.read p.sp) none := by
    simp only [execute, pop_of_depth hdepth]
  exact ⟨_, ⟨hrun, hdecode, _, _, hexec, rfl⟩, sp_setSp _ _, rfl⟩

/-- Whatever happens after a call that spares the cell of its return address, the return that finds the
pointer there goes on after the call, with the pointer back where it was. -/
theorem return_follows_call {s q : Processor} {r : Register} (hrun : s.state = .running)
    (hcall : s.memory.decodeAt s.pc = .ok (.call r)) (hroom : 1 ≤ s.stackRoom)
    (hbody : Run (SparesCell (s.sp - 1)) s.step.processor q) (hback : q.state = .running)
    (hret : q.memory.decodeAt q.pc = .ok .ret) (hsp : q.sp = s.sp - 1) :
    ∃ done, q.Completes .ret none done ∧ done.pc = s.pc + 2 ∧ done.sp = s.sp := by
  obtain ⟨htop, hend⟩ := (s.le_stackRoom_iff (by decide)).mp hroom
  have hone : (1 : UInt8).toNat = 1 := rfl
  have hcell : (s.sp - 1).toNat = s.sp.toNat - 1 :=
    UInt8.toNat_sub_of_le _ _ (UInt8.le_iff_toNat_le.mpr (by omega))
  have hbelow : (s.sp - 1).toNat < stackTop.toNat := by
    show _ < 0xF3
    omega
  obtain ⟨called, hcalled, hpointer, haddress⟩ := completes_call hrun hcall hroom
  have hkept : q.memory.read (s.sp - 1) = s.pc + 2 := by
    rw [read_run_of_sparesCell hbelow hbody, read_step_of_completes hcalled, haddress]
    intro line _
    rw [hpointer]
  -- The cell lies on the stack, so that the return finds a byte, whatever the pointer did meanwhile.
  have hdepth : 1 ≤ q.stackDepth := by
    rw [q.le_stackDepth_iff (by decide), hsp]
    omega
  obtain ⟨done, hdone, hup, hpc⟩ := completes_ret hback hret hdepth
  refine ⟨done, hdone, ?_, ?_⟩
  · rw [hpc, hsp, hkept]
  · rw [hup, hsp]
    grind

theorem sparesCell_of_completes {p done : Processor} {i : Instruction Register}
    {printed : Option Printed} {cell : UInt8} (h : p.Completes i printed done)
    (hstore : ∀ address source, i ≠ .store address source) (hpush : p.sp.toNat ≤ cell.toNat)
    (hserve : done.sp.toNat ≤ cell.toNat) : SparesCell cell p i := by
  refine ⟨fun address source hi => absurd hi (hstore address source), fun _ => hpush, ?_⟩
  intro printed' done' line h' _
  obtain ⟨-, -, rfl⟩ := h.unique h'
  exact hserve

/-- About to call a subroutine that pushes register 1 and pops it again. Line 1 is let through, and its
handler returns at once. -/
def calling : Processor where
  registers := ⟨#v[0x20, 7, 0, 0, 0, 2, 0, 0xF3], 0, 0, .empty⟩
  memory := (Memory.zero.writeAll 0 [0x50, 0]).writeAll 0x20 [0x45, 1, 0x46, 1, 0x11] |>.write 0x30 0x13
    |>.write 0xF9 0x30
  interrupts := .quiet
  state := .running
  cycles := 0
  fault := none
  programEnd := 0x40
  lastInstruction := none

/-- The end of that subroutine: a key came in the midst of it and was served. -/
def called : Processor := ((calling.step.processor.press 65 1).step.processor.step.processor).step.processor

theorem run_called : Run (SparesCell 0xF2) calling.step.processor called := by
  have hkey : Run (SparesCell 0xF2) calling.step.processor (calling.step.processor.press 65 1) :=
    .press 65 1 .start
  have hpushed := hkey.step (i := .push 1) rfl
    (sparesCell_of_completes ⟨rfl, rfl, _, _, rfl, rfl⟩ (by simp) (by decide) (by decide))
  have hserved := hpushed.step (i := .interruptReturn) rfl
    (sparesCell_of_completes ⟨rfl, rfl, _, _, rfl, rfl⟩ (by simp) (by decide) (by decide))
  exact hserved.step (i := .pop 1) rfl
    (sparesCell_of_completes ⟨rfl, rfl, _, _, rfl, rfl⟩ (by simp) (by decide) (by decide))

theorem called_returns :
    ∃ done, called.Completes .ret none done ∧ done.pc = 2 ∧ done.sp = 0xF3 :=
  return_follows_call (s := calling) rfl rfl (by decide) run_called rfl rfl rfl

end Processor

end Microcomputer
