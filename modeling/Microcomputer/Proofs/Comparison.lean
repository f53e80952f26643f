import Microcomputer.Proofs.Rows

/-!
Conditional jumps follow the last comparison.

`Condition.Relates` reads a condition as a relation of two numbers. The flags of a comparison hold exactly the
conditions whose relation is true of the compared bytes (`holds_ofComparison`), and they stay as they are until
another comparison or the return from an interrupt: `flags_run`. So a jump goes by the last comparison, whatever
has become of the registers since: `jump_follows_comparison`.
-/

namespace Microcomputer

namespace Condition

/-- Whether the condition is true of two compared numbers. -/
def Relates (x y : Nat) : Condition → Prop
  | always => True
  | equal => x = y
  | notEqual => x ≠ y
  | greater => x > y
  | less => x < y
  | lessOrEqual => x ≤ y
  | greaterOrEqual => x ≥ y

instance (x y : Nat) (c : Condition) : Decidable (c.Relates x y) := by
  cases c <;> simp only [Relates] <;> infer_instance

theorem holds_ofComparison (c : Condition) (x y : UInt8) :
    c.holds (Flags.ofComparison x y) = true ↔ c.Relates x.toNat y.toNat := by
  cases c <;> simp [holds, Relates, Flags.equal_ofComparison, Flags.greater_ofComparison,
    Flags.less_ofComparison, UInt8.lt_iff_toNat_lt, ← UInt8.toNat_inj] <;> omega

end Condition

/-- Comparisons and returns from interrupts set the flags. -/
def Instruction.setsFlags {ρ : Type} : Instruction ρ → Bool
  | alu op _ _ => op = .cmp
  | interruptReturn => true
  | _ => false

namespace Processor

section

variable {p q done : Processor} {i : Instruction Register} {printed : Option Printed}

/-- The row of any other instruction does not name the flags. -/
theorem flags_row (p : Processor) (hi : i.setsFlags = false) : (p.row i).flags = none := by
  cases i with
  | alu op target source => cases op <;> first | rfl | cases hi
  | interruptReturn => cases hi
  | _ => rfl

theorem flags_of_completes (h : p.Completes i printed done) (hi : i.setsFlags = false) :
    done.registers.flags = p.registers.flags := by
  have hbits := (gives_of_completes h).flags
  rw [p.flags_row hi, Option.getD_none, Int.ofNat_inj, UInt8.toNat_inj] at hbits
  exact congrArg Flags.mk hbits

/-- The interrupt after an instruction saves the flags and leaves them as they are. -/
theorem flags_step_of_completes (h : p.Completes i printed done) :
    p.step.processor.registers.flags = done.registers.flags := by
  rcases done.idle_or_serves with hidle | ⟨line, hserves⟩
  · rw [step_of_idle h hidle]
  · rcases Nat.lt_or_ge done.stackRoom 10 with hfull | hroom
    · rw [step_of_full h hserves hfull]
      rfl
    · rw [step_of_room h hserves hroom]
      rfl

/-- The flags stay along a run without comparisons and returns from interrupts. -/
theorem flags_run (h : Run (fun _ i => i.setsFlags = false) p q) :
    q.registers.flags = p.registers.flags := by
  have hstep (r : Processor) (i : Instruction Register) (hr : r.registers.flags = p.registers.flags)
      (hok : r.step.result = .ok i) (hi : i.setsFlags = false) :
      r.step.processor.registers.flags = p.registers.flags := by
    obtain ⟨done, hdone, -⟩ := completes_of_step hok
    rw [flags_step_of_completes hdone, flags_of_completes hdone hi, hr]
  exact h.keeps hstep (fun _ _ hr => hr) (fun _ _ _ hr => hr) rfl

theorem completes_cmp {a b : Register} (hrun : p.state = .running)
    (hdecode : p.memory.decodeAt p.pc = .ok (.alu .cmp a b)) :
    ∃ done, p.Completes (.alu .cmp a b) none done ∧
      done.registers.flags = .ofComparison (p.registers.get a) (p.registers.get b) :=
  ⟨_, ⟨hrun, hdecode, _, _, rfl, rfl⟩, rfl⟩

theorem completes_jump {c : Condition} {r : Register} (hrun : p.state = .running)
    (hdecode : p.memory.decodeAt p.pc = .ok (.jump c r)) :
    ∃ done, p.Completes (.jump c r) none done ∧
      done.pc = if c.holds p.registers.flags then p.registers.get r else p.pc + 2 := by
  have hlength : (Instruction.jump c r).length = 2 := (p.size_row (.jump c r)).symm
  refine ⟨_, ⟨hrun, hdecode, _, _, rfl, rfl⟩, ?_⟩
  rw [hlength]
  rfl

end

/-- A jump goes to the address in its register if its condition is true of the numbers that were compared
last, and on to the next instruction if not. Between the comparison and the jump the compared registers may be
overwritten and interrupts be served. -/
theorem jump_follows_comparison {p q : Processor} {a b r : Register} {c : Condition}
    (hrun : p.state = .running) (hcmp : p.memory.decodeAt p.pc = .ok (.alu .cmp a b))
    (hsince : Run (fun _ i => i.setsFlags = false) p.step.processor q) (hback : q.state = .running)
    (hjump : q.memory.decodeAt q.pc = .ok (.jump c r)) :
    ∃ done, q.Completes (.jump c r) none done ∧
      done.pc = if c.Relates (p.number a) (p.number b) then q.registers.get r else q.pc + 2 := by
  obtain ⟨compared, hcompared, hflags⟩ := completes_cmp hrun hcmp
  obtain ⟨done, hdone, hpc⟩ := completes_jump hback hjump
  have hkept : q.registers.flags = .ofComparison (p.registers.get a) (p.registers.get b) := by
    rw [flags_run hsince, flags_step_of_completes hcompared, hflags]
  refine ⟨done, hdone, ?_⟩
  rw [hpc, hkept]
  exact if_congr (c.holds_ofComparison _ _) rfl rfl

/-- Compares 200 with 100, and then clears the register that held the 200. A key is served after that, by a
handler that adds and jumps if greater. -/
def comparing : Processor where
  registers := ⟨#v[200, 100, 0x20, 0, 0, 2, 0, 0xF3], 0, 0, .empty⟩
  memory := (Memory.zero.writeAll 0 [0xA7, 0, 1, 0x82, 0, 0]).writeAll 0x30 [0xA0, 3, 1, 0x57, 2]
    |>.write 0xF9 0x30
  interrupts := .quiet
  state := .running
  cycles := 0
  fault := none
  programEnd := 0x40
  lastInstruction := none

/-- About to jump. -/
def compared : Processor := (comparing.step.processor.press 65 1).step.processor.step.processor

theorem compared_jumps :
    ∃ done, compared.Completes (.jump .greater 2) none done ∧ done.pc = 0x20 := by
  have hkey : Run (fun _ i => i.setsFlags = false) comparing.step.processor
      (comparing.step.processor.press 65 1) :=
    .press 65 1 .start
  have hcleared := hkey.step (i := .loadImmediate 0 0) rfl rfl
  have hadded := hcleared.step (i := .alu .add 3 1) rfl rfl
  obtain ⟨done, hdone, hpc⟩ := jump_follows_comparison (p := comparing) (q := compared) rfl rfl hadded rfl rfl
  rw [if_pos (by decide)] at hpc
  exact ⟨done, hdone, hpc⟩

end Processor

end Microcomputer
