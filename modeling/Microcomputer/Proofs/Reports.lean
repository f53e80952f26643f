import Microcomputer.Proofs.Dispatch
import Microcomputer.Proofs.Opcodes

/-!
Which fault a step reports.

A step can fail in three places: its bytes do not decode, its instruction is refused, or the interrupt after
it finds no room. `Refuses` says for each fault which instructions are refused with it, `Crowded` when an
interrupt finds no room, and `Reports` what the whole step reports. `step_reports`: that and nothing else.
-/

namespace Microcomputer

namespace Processor

/-! ## Instructions that are refused -/

def DividesByZero (p : Processor) : Instruction Register → Prop
  | .alu op _ source => (op = .div ∨ op = .mod) ∧ p.registers.get source = 0
  | _ => False

/-- The instruction pushes where there is no free cell: above the stack's first slot, or down to the image. -/
def Overflows (p : Processor) : Instruction Register → Prop
  | .push _ | .call _ => 0xF3 < p.sp.toNat ∨ p.sp.toNat ≤ p.programEnd.toNat
  | _ => False

/-- The instruction takes back more than there is on the stack, and finds its end at `sp`. A return from an
interrupt needs ten bytes below the first slot, and nine more at the pointer that it takes back first. -/
def Underflows (p : Processor) (sp : UInt8) : Instruction Register → Prop
  | .pop _ | .ret => 0xF3 ≤ p.sp.toNat ∧ sp = p.sp
  | .interruptReturn =>
    (0xE9 < p.sp.toNat ∧ sp = p.sp) ∨
      (p.sp.toNat ≤ 0xE9 ∧ 0xEA < (p.memory.read p.sp).toNat ∧ sp = max (p.memory.read p.sp) 0xF3)
  | _ => False

/-- The faults with which an instruction is refused. -/
def Refuses (p : Processor) (i : Instruction Register) : Fault → Prop
  | .divisionByZero a => p.DividesByZero i ∧ a = p.pc
  | .stackOverflow sp => p.Overflows i ∧ sp = p.sp
  | .stackUnderflow sp => p.Underflows sp i
  | _ => False

theorem stackRoom_eq_zero_iff (p : Processor) :
    p.stackRoom = 0 ↔ 0xF3 < p.sp.toNat ∨ p.sp.toNat ≤ p.programEnd.toNat := by
  have hroom := p.le_stackRoom_iff (n := 1) (by decide)
  omega

theorem stackDepth_eq_zero_iff (p : Processor) : p.stackDepth = 0 ↔ 0xF3 ≤ p.sp.toNat := by
  have hdepth := p.le_stackDepth_iff (n := 1) (by decide)
  omega

/-- A push is refused for want of room only. -/
theorem refuses_push {p : Processor} {i : Instruction Register} (v : UInt8)
    (hi : p.Overflows i ↔ p.stackRoom = 0) (hdivides : ¬p.DividesByZero i)
    (hunder : ∀ sp, ¬p.Underflows sp i) (f : Fault) : (p.push v).2 = some f ↔ p.Refuses i f := by
  rw [push_refused_iff]
  cases f <;> simp [Refuses, hi, hdivides, hunder]

/-- A pop is refused for want of depth only. -/
theorem refuses_pop {p : Processor} {i : Instruction Register}
    (hi : ∀ sp, p.Underflows sp i ↔ p.stackDepth = 0 ∧ sp = p.sp) (hdivides : ¬p.DividesByZero i)
    (hover : ¬p.Overflows i) (f : Fault) : p.pop.2 = .error f ↔ p.Refuses i f := by
  rw [pop_refused_iff]
  cases f <;> simp [Refuses, hi, hdivides, hover]

theorem refuses_interruptReturn (p : Processor) (f : Fault) :
    p.restoreContext.2 = some f ↔ p.Refuses .interruptReturn f := by
  have htop : (0xF3 : UInt8) = stackTop := rfl
  have hten := p.le_stackDepth_iff (n := 10) (by decide)
  have hrefuses : p.Refuses .interruptReturn f ↔
      ∃ sp, f = .stackUnderflow sp ∧ p.Underflows sp .interruptReturn := by
    cases f <;> simp [Refuses, DividesByZero, Overflows]
  rw [hrefuses]
  rcases Nat.lt_or_ge p.stackDepth 10 with hshallow | hdeep
  · have hsp : 0xE9 < p.sp.toNat := by omega
    have hnot : ¬p.sp.toNat ≤ 0xE9 := by omega
    rw [restoreContext_of_shallow hshallow]
    simp [Underflows, hsp, hnot, eq_comm]
  · have hsp : p.sp.toNat ≤ 0xE9 := by omega
    have hnot : ¬0xE9 < p.sp.toNat := by omega
    rcases Nat.lt_or_ge 0xEA (p.memory.read p.sp).toNat with hhigh | hlow
    · rw [restoreContext_of_high hdeep hhigh]
      simp [Underflows, hsp, hnot, hhigh, htop, eq_comm]
    · have hnothigh : ¬0xEA < (p.memory.read p.sp).toNat := by omega
      rw [(p.restoreContext_spec hdeep hlow).1]
      simp [Underflows, hnot, hnothigh]

/-- An instruction fails exactly with the faults that refuse it. -/
theorem execute_failed_iff (p : Processor) (i : Instruction Register) (f : Fault) :
    (∃ q, p.execute i = .failed q f) ↔ p.Refuses i f := by
  cases i with
  | alu op target source =>
    have hzero := op.compute_eq_error_iff (p.registers.get target) (p.registers.get source) .divisionByZero
    have hpc : p.registers.pc = p.pc := rfl
    simp only [execute]
    split
    all_goals cases f <;> simp_all [Refuses, DividesByZero, Overflows, Underflows, eq_comm]
  | push source =>
    rw [← refuses_push (i := .push source) (p.registers.get source) p.stackRoom_eq_zero_iff.symm id
      (fun _ => id)]
    simp only [execute]
    rcases p.push (p.registers.get source) with ⟨q, _ | g⟩ <;> simp
  | call address =>
    rw [← refuses_push (i := .call address) (p.registers.pc + UInt8.ofNat (Instruction.call address).length)
      p.stackRoom_eq_zero_iff.symm id (fun _ => id)]
    simp only [execute]
    rcases p.push (p.registers.pc + UInt8.ofNat (Instruction.call address).length) with ⟨q, _ | g⟩ <;> simp
  | pop target =>
    rw [← refuses_pop (p := p) (i := .pop target)
      (fun sp => and_congr_left' p.stackDepth_eq_zero_iff.symm) id id]
    simp only [execute]
    rcases p.pop with ⟨q, g | v⟩ <;> simp
  | ret =>
    rw [← refuses_pop (p := p) (i := .ret) (fun sp => and_congr_left' p.stackDepth_eq_zero_iff.symm) id id]
    simp only [execute]
    rcases p.pop with ⟨q, g | v⟩ <;> simp
  | interruptReturn =>
    rw [← refuses_interruptReturn]
    simp only [execute]
    rcases p.restoreContext with ⟨q, _ | g⟩ <;> simp
  | store address source =>
    simp only [execute]
    split <;> cases f <;> simp [Refuses, DividesByZero, Overflows, Underflows]
  | _ => cases f <;> simp [execute, Refuses, DividesByZero, Overflows, Underflows]

/-! ## What a step reports -/

/-- A line is to be served, and there are fewer than ten free cells to save the context in. -/
def Crowded (p : Processor) : Prop :=
  p.state = .running ∧ p.interrupts.servicing = false ∧ p.interrupts.status &&& p.registers.mask ≠ 0 ∧
    (0xF3 < p.sp.toNat ∨ p.sp.toNat < p.programEnd.toNat + 10)

/-- The faults that a step reports: what the bytes at the program counter lack to be an instruction, what the
instruction is refused with, or that the interrupt after it finds no room. -/
def Reports (p : Processor) : Fault → Prop
  | .notRunning _ => False
  | .invalidOpcode a op =>
    a = p.pc ∧ op = p.memory.read p.pc ∧ Opcode.operands? (p.memory.read p.pc) = none
  | .invalidRegister a r =>
    a = p.pc ∧ ∃ operands, Opcode.operands? (p.memory.read p.pc) = some operands ∧
      strayRegister? operands [p.memory.read (p.pc + 1), p.memory.read (p.pc + 2)] = some r
  | .divisionByZero a => a = p.pc ∧ ∃ i, p.memory.decodeAt p.pc = .ok i ∧ p.DividesByZero i
  | .stackUnderflow sp => ∃ i, p.memory.decodeAt p.pc = .ok i ∧ p.Underflows sp i
  | .stackOverflow sp =>
    (∃ i, p.memory.decodeAt p.pc = .ok i ∧ p.Overflows i ∧ sp = p.sp) ∨
      ∃ i printed done, p.Completes i printed done ∧ done.Crowded ∧ sp = done.sp

/-- The three places in which a step can fail. -/
theorem reports_iff (p : Processor) (f : Fault) :
    p.Reports f ↔
      (∃ e, p.memory.decodeAt p.pc = .error e ∧ f = .ofDecodeError p.pc e) ∨
      (∃ i, p.memory.decodeAt p.pc = .ok i ∧ p.Refuses i f) ∨
      ∃ i printed done, p.Completes i printed done ∧ done.Crowded ∧ f = .stackOverflow done.sp := by
  constructor
  · intro h
    cases f with
    | notRunning state => exact absurd h id
    | invalidOpcode a op =>
      obtain ⟨rfl, rfl, hunknown⟩ := h
      exact .inl ⟨_, (Instruction.decode_eq_invalidOpcode_iff _ _ _ _).mpr ⟨rfl, hunknown⟩, rfl⟩
    | invalidRegister a r =>
      obtain ⟨rfl, hstray⟩ := h
      exact .inl ⟨_, (Instruction.decode_eq_invalidRegister_iff _ _ _ _).mpr hstray, rfl⟩
    | divisionByZero a =>
      obtain ⟨rfl, i, hi, hzero⟩ := h
      exact .inr (.inl ⟨i, hi, hzero, rfl⟩)
    | stackUnderflow sp => exact .inr (.inl h)
    | stackOverflow sp =>
      rcases h with ⟨i, hi, hover, rfl⟩ | ⟨i, printed, done, hdone, hcrowded, rfl⟩
      · exact .inr (.inl ⟨i, hi, hover, rfl⟩)
      · exact .inr (.inr ⟨i, printed, done, hdone, hcrowded, rfl⟩)
  · rintro (⟨e, he, rfl⟩ | ⟨i, hi, hrefuses⟩ | ⟨i, printed, done, hdone, hcrowded, rfl⟩)
    · cases e with
      | invalidOpcode op =>
        obtain ⟨rfl, hunknown⟩ := (Instruction.decode_eq_invalidOpcode_iff _ _ _ _).mp he
        exact ⟨rfl, rfl, hunknown⟩
      | invalidRegister r => exact ⟨rfl, (Instruction.decode_eq_invalidRegister_iff _ _ _ _).mp he⟩
    · cases f with
      | divisionByZero a => exact ⟨hrefuses.2, i, hi, hrefuses.1⟩
      | stackUnderflow sp => exact ⟨i, hi, hrefuses⟩
      | stackOverflow sp => exact .inl ⟨i, hi, hrefuses⟩
      | _ => exact absurd hrefuses id
    · exact .inr ⟨i, printed, done, hdone, hcrowded, rfl⟩

/-- Only a line that is to be served can find too little room. -/
theorem crowded_iff (p : Processor) : p.Crowded ↔ ∃ line, p.Serves line ∧ p.stackRoom < 10 := by
  have hroom := p.le_stackRoom_iff (n := 10) (by decide)
  have hfull : p.stackRoom < 10 ↔ 0xF3 < p.sp.toNat ∨ p.sp.toNat < p.programEnd.toNat + 10 := by omega
  rw [Crowded]
  constructor
  · rintro ⟨hrun, hclear, hactive, hsp⟩
    obtain ⟨line, hlow⟩ := exists_lowestLine hactive
    exact ⟨line, ⟨hrun, hclear, hlow⟩, hfull.mpr hsp⟩
  · rintro ⟨line, ⟨hrun, hclear, hlow⟩, hsp⟩
    refine ⟨hrun, hclear, ?_, hfull.mp hsp⟩
    intro hzero
    have hset := hlow.set
    rw [hzero] at hset
    simp at hset

/-- A running processor reports a fault exactly when there is reason to, and executes its instruction when
there is none. -/
theorem step_reports {p : Processor} (hrun : p.state = .running) :
    (∀ f, p.step.result = .error f ↔ p.Reports f) ∧
      ((∀ f, ¬p.Reports f) → ∃ i, p.memory.decodeAt p.pc = .ok i ∧ p.step.result = .ok i) := by
  have herror (f : Fault) : p.step.result = .error f ↔ p.Reports f := by
    rw [reports_iff]
    constructor
    · intro h
      have hstep := p.outcome_step
      generalize p.step = outcome at hstep h
      cases hstep with
      | stopped hstopped => exact absurd hrun hstopped
      | undecoded run decode =>
        cases h
        exact .inl ⟨_, decode, rfl⟩
      | failed run decode execute =>
        cases h
        exact .inr (.inl ⟨_, decode, (p.execute_failed_iff _ _).mp ⟨_, execute⟩⟩)
      | idle => cases h
      | served => cases h
      | @unserved i printed done line completes serves full =>
        cases h
        exact .inr (.inr ⟨_, _, done, completes, done.crowded_iff.mpr ⟨line, serves, full⟩, rfl⟩)
    · rintro (⟨e, he, rfl⟩ | ⟨i, hi, hrefuses⟩ | ⟨i, printed, done, hdone, hcrowded, rfl⟩)
      · rw [step_of_decodeError hrun he]
      · obtain ⟨q, hfailed⟩ := (p.execute_failed_iff i f).mpr hrefuses
        rw [step_of_failed hrun hi hfailed]
      · obtain ⟨line, hserves, hfull⟩ := done.crowded_iff.mp hcrowded
        rw [step_of_full hdone hserves hfull]
  refine ⟨herror, fun hnone => ?_⟩
  cases hresult : p.step.result with
  | error f => exact absurd ((herror f).mp hresult) (hnone f)
  | ok i =>
    obtain ⟨done, hdone, -⟩ := completes_of_step hresult
    obtain ⟨-, hdecode, -⟩ := hdone
    exact ⟨i, hdecode, rfl⟩

/-- A return from an interrupt that takes back a pointer with three cells of stack above it. -/
def misled : Processor := ((powerOn.load [0x13]).1.setSp 0xE9).write 0xE9 0xF0

theorem misled_underflows : misled.step.result = .error (.stackUnderflow 0xF3) := by
  have hrun : misled.state = .running := rfl
  have hdecode : misled.memory.decodeAt misled.pc = .ok .interruptReturn := rfl
  apply ((step_reports hrun).1 _).mpr
  exact ⟨.interruptReturn, hdecode, .inr (by decide)⟩

end Processor

end Microcomputer
