import Microcomputer.Proofs.Dispatch

/-!
What a faulting step leaves behind.

`step_fault`: a step that fails before its instruction completes changes nothing but the run state and the
fault on record, the return from an interrupt apart; one that fails at the boundary after it keeps all that
the instruction did and nothing of the interrupt.
-/

namespace Microcomputer

namespace Processor

/-- What a step of `p` that ends in the fault `f` leaves behind. -/
inductive FaultLeaves (p : Processor) (f : Fault) : Prop
  /-- The bytes at the program counter are no instruction. -/
  | undecoded (e : DecodeError) (decode : p.memory.decodeAt p.pc = .error e)
      (processor : p.step.processor = { p with state := .faulted, fault := some f })
      (printed : p.step.printed = none)
  /-- The instruction itself fails. -/
  | failed (i : Instruction Register) (q : Processor) (decode : p.memory.decodeAt p.pc = .ok i)
      (execute : p.execute i = .failed q f)
      (processor : i ≠ .interruptReturn →
        p.step.processor = { p with state := .faulted, fault := some f })
      (printed : p.step.printed = none)
  /-- The instruction completes, and the line that is to be served after it finds no room. -/
  | unserved (i : Instruction Register) (printed : Option Printed) (done : Processor) (line : UInt8)
      (completes : p.Completes i printed done)
      (processor : p.step.processor = { done with state := .faulted, fault := some f })
      (emitted : p.step.printed = printed) (ir : done.registers.ir = i.opcode)
      (cycles : done.cycles = p.cycles + 1) (last : done.lastInstruction = some i.raw)
      (lowest : LowestLine (done.interrupts.status &&& done.registers.mask) line)
      (pending : p.step.processor.interrupts.isPending line = true)
      (servicing : p.step.processor.interrupts.servicing = false)

/-- A line to be served is pending. -/
theorem Serves.isPending {p : Processor} {line : UInt8} (h : p.Serves line) :
    p.interrupts.isPending line = true := by
  obtain ⟨-, -, hlow⟩ := h
  have hset := hlow.set
  rw [UInt8.toNat_and, Nat.testBit_and, Bool.and_eq_true] at hset
  rw [InterruptController.isPending_eq, Nat.mod_eq_of_lt hlow.lt]
  exact hset.1

/-- Only a line without room for its context faults at the boundary. -/
theorem step_error_of_completes {p done : Processor} {i : Instruction Register}
    {printed : Option Printed} {f : Fault} (h : p.Completes i printed done)
    (hfault : p.step.result = .error f) :
    ∃ line, done.Serves line ∧ p.step = ⟨done.stop f, printed, .error f⟩ := by
  rcases done.idle_or_serves with hidle | ⟨line, hserves⟩
  · rw [step_of_idle h hidle] at hfault
    cases hfault
  · rcases Nat.lt_or_ge done.stackRoom 10 with hroom | hroom
    · have hstep := step_of_full h hserves hroom
      rw [hstep] at hfault
      cases hfault
      exact ⟨line, hserves, hstep⟩
    · rw [step_of_room h hserves hroom] at hfault
      cases hfault

/-- A step of a running processor that fails leaves it as it was or, when the interrupt after its
instruction finds no room, as the instruction left it. -/
theorem step_fault {p : Processor} {f : Fault} (hrun : p.state = .running)
    (hfault : p.step.result = .error f) : p.FaultLeaves f := by
  rcases step_cases hrun with ⟨e, he⟩ | ⟨i, q, g, hi, hg⟩ | ⟨i, printed, done, hdone⟩
  · have hstep := step_of_decodeError hrun he
    rw [hstep] at hfault
    cases hfault
    refine .undecoded e he ?_ ?_ <;> rw [hstep]
    rfl
  · have hstep := step_of_failed hrun hi hg
    rw [hstep] at hfault
    cases hfault
    refine .failed i q hi hg (fun hne => ?_) ?_ <;> rw [hstep]
    rw [eq_of_failed hg hne]
    rfl
  · obtain ⟨line, hserves, hstep⟩ := step_error_of_completes hdone hfault
    obtain ⟨q, next, heffect, rfl⟩ := effect_of_completes hdone
    have hcycles : (q.retire i next).cycles = p.cycles + 1 := by
      rw [← heffect.cycles]
      rfl
    refine .unserved i printed _ line hdone ?_ ?_ rfl hcycles rfl hserves.2.2 ?_ ?_ <;> rw [hstep]
    · rfl
    · exact hserves.isPending
    · exact hserves.2.1

/-- The program raises an unmasked line where no context fits between the image and the pointer. -/
def crowded : Processor :=
  (powerOn.load [0x82, 5, 0xFF, 0x82, 7, 12, 0x52, 0]).1.step.processor.step.processor

theorem crowded_faults :
    crowded.step.result = .error (.stackOverflow 12) ∧ crowded.FaultLeaves (.stackOverflow 12) := by
  have hrun : crowded.state = .running := rfl
  have hfault : crowded.step.result = .error (.stackOverflow 12) := rfl
  exact ⟨hfault, step_fault hrun hfault⟩

end Processor

end Microcomputer
