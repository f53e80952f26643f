import Microcomputer.Proofs.Execution

/-!
A return from an interrupt that fails.

The depth of the stack is asked for once, at the pointer that the return finds. The byte that it takes back
first is the pointer through which it takes back the other nine, and nothing is asked of that one in advance.

* `get_restored_of_high`: through a pointer with less than nine cells of stack above it, the slots whose bytes
  stand below the stack's top are filled before the fault, and the pointer ends at the top.
* `interruptReturn_fault`: a return that fails leaves the processor as it was exactly if it found fewer than
  ten bytes on the stack.
* `misguided_return_changes` is a return that fails and changes a register, the flags and the pointer.
-/

namespace Microcomputer

namespace Processor

/-- The byte that the return from an interrupt takes back first. -/
def savedPointer (p : Processor) : UInt8 := p.memory.read p.sp

/-- Through a pointer that stands too high, the context is taken back as far as the stack goes. -/
theorem restored_of_high {p : Processor} (hdepth : 10 ≤ p.stackDepth)
    (hsaved : 0xEA < p.savedPointer.toNat) :
    p.restoreContext =
      ((popSlots (Slot.beside.take (0xF3 - p.savedPointer.toNat)) (p.setSp p.savedPointer)).1,
        some (.stackUnderflow (max p.savedPointer stackTop))) :=
  restoreContext_of_high hdepth hsaved

theorem get_restored_of_high {p : Processor} (hdepth : 10 ≤ p.stackDepth)
    (hsaved : 0xEA < p.savedPointer.toNat) :
    p.restoreContext.1.sp = max p.savedPointer stackTop ∧
      ∀ s ≠ Slot.pointer, s.get p.restoreContext.1 =
        if p.savedPointer.toNat + 9 < 0xF3 + s.offset.toNat then
          p.memory.read (p.savedPointer + 9 - s.offset)
        else s.get p := by
  have htop : stackTop.toNat = 0xF3 := rfl
  rw [restored_of_high hdepth hsaved]
  generalize p.savedPointer = v at hsaved ⊢
  have hleft : 0xF3 - v.toNat ≤ (p.setSp v).stackDepth :=
    Nat.le_of_eq (by rw [stackDepth, sp_setSp, htop])
  obtain ⟨-, hsp, hslots⟩ := popSlots_take_beside p v (0xF3 - v.toNat) (by omega) hleft
  constructor
  · rw [hsp]
    rcases Nat.lt_or_ge v.toNat 0xF3 with hbelow | habove
    · rw [max_stackTop_of_le (UInt8.le_iff_toNat_le.mpr (by omega)), ← htop, UInt8.ofNat_sub (by omega),
        UInt8.ofNat_toNat, UInt8.ofNat_toNat]
      grind
    · rw [max_stackTop_of_ge (UInt8.le_iff_toNat_le.mpr (by omega)), Nat.sub_eq_zero_of_le habove]
      exact UInt8.add_zero _
  · intro s hs
    have hnine := s.offset_le_nine hs
    rw [hslots s hs]
    exact if_congr (by omega) rfl rfl

/-- What a return from an interrupt that fails with `f` leaves of `p`. -/
inductive ReturnLeaves (p q : Processor) (f : Fault) : Prop
  /-- There are fewer than ten bytes on the stack. Nothing has been taken back. -/
  | shallow (depth : p.stackDepth < 10) (fault : f = .stackUnderflow p.sp) (processor : q = p)
  /-- The saved pointer has less than nine cells of stack above it. It has been taken back and moved to the
  stack's top, or stands above it, and each slot whose byte stands below the top has been filled. -/
  | misguided (depth : 10 ≤ p.stackDepth) (saved : 0xEA < p.savedPointer.toNat)
      (fault : f = .stackUnderflow (max p.savedPointer stackTop))
      (pointer : q.sp = max p.savedPointer stackTop) (moved : q.sp ≠ p.sp)
      (slots : ∀ s ≠ Slot.pointer, s.get q =
        if p.savedPointer.toNat + 9 < 0xF3 + s.offset.toNat then
          p.memory.read (p.savedPointer + 9 - s.offset)
        else s.get p)

/-- A return from an interrupt that fails never changes the program counter, memory, the interrupt lines or
anything else beside the registers. It leaves the registers as they were exactly if it found fewer than ten
bytes on the stack: otherwise it fails through the pointer that it has taken back. -/
theorem interruptReturn_fault {p q : Processor} {f : Fault} (hrun : p.state = .running)
    (hdecode : p.memory.decodeAt p.pc = .ok .interruptReturn)
    (hfail : p.execute .interruptReturn = .failed q f) :
    p.step = ⟨q.stop f, none, .error f⟩ ∧ q = { p with registers := q.registers } ∧ q.pc = p.pc ∧
      (q = p ↔ p.stackDepth < 10) ∧ p.ReturnLeaves q f := by
  have hrestored : p.restoreContext = (q, some f) := by
    simp only [execute] at hfail
    split at hfail
    · cases hfail
    · next hr =>
      cases hfail
      exact hr
  refine ⟨step_of_failed hrun hdecode hfail, (sameBesideRegisters_of_failed hfail).eq, ?_⟩
  rcases Nat.lt_or_ge p.stackDepth 10 with hshallow | hdepth
  · rw [restoreContext_of_shallow hshallow] at hrestored
    cases hrestored
    exact ⟨rfl, by simp [hshallow], .shallow hshallow rfl rfl⟩
  · have hsaved : 0xEA < p.savedPointer.toNat := by
      by_contra hlow
      have hok := (p.restoreContext_eq_none_iff).mpr ⟨hdepth, Nat.le_of_not_lt hlow⟩
      rw [hrestored] at hok
      cases hok
    have hfault := restored_of_high hdepth hsaved
    obtain ⟨hsp, hslots⟩ := get_restored_of_high hdepth hsaved
    rw [hrestored] at hfault hsp hslots
    -- The pointer ends at the stack's top or above it, and the return found it ten cells below.
    have hmoved : q.sp ≠ p.sp := by
      intro hsame
      have htop : stackTop ≤ max p.savedPointer stackTop := by
        rcases UInt8.le_total p.savedPointer stackTop with hle | hge
        · rw [max_stackTop_of_le hle]
          exact UInt8.le_refl _
        · rwa [max_stackTop_of_ge hge]
      rw [← hsp, hsame, UInt8.le_iff_toNat_le, show stackTop.toNat = 0xF3 from rfl] at htop
      have hbelow := (p.le_stackDepth_iff (n := 10) (by decide)).mp hdepth
      omega
    refine ⟨?_, ?_, .misguided hdepth hsaved ?_ hsp hmoved hslots⟩
    · refine (hslots .pc (by decide)).trans (if_neg ?_)
      rw [show Slot.pc.offset.toNat = 1 from rfl]
      omega
    · constructor
      · rintro rfl
        exact absurd rfl hmoved
      · omega
    · exact Option.some.inj (congrArg Prod.snd hfault)

/-- The program sets the pointer to a cell in which it has stored `0xEB`, compares two equal numbers, and
returns from an interrupt that never came. -/
def misguided : Processor :=
  (powerOn.load [0x82, 0, 0xEB, 0x82, 7, 0xE0, 0x84, 7, 0, 0xA7, 0, 0, 0x13]).1.step.processor.step.processor
    |>.step.processor.step.processor

theorem misguided_left :
    ∃ q, misguided.execute .interruptReturn = .failed q (.stackUnderflow 0xF3) ∧
      misguided.step.processor = q.stop (.stackUnderflow 0xF3) ∧ q ≠ misguided ∧ q.pc = misguided.pc := by
  let q := misguided.restoreContext.1
  have hrun : misguided.state = .running := by decide +kernel
  have hdecode : misguided.memory.decodeAt misguided.pc = .ok .interruptReturn := by decide +kernel
  have hfault : misguided.restoreContext.2 = some (.stackUnderflow 0xF3) := by decide +kernel
  have hrestored : misguided.restoreContext = (q, some (.stackUnderflow 0xF3)) := Prod.ext rfl hfault
  have hfail : misguided.execute .interruptReturn = .failed q (.stackUnderflow 0xF3) := by
    simp only [execute, hrestored]
  have hdeep : ¬misguided.stackDepth < 10 := by decide +kernel
  obtain ⟨hstep, -, hpc, hunchanged, -⟩ := interruptReturn_fault hrun hdecode hfail
  exact ⟨q, hfail, by rw [hstep], fun h => hdeep (hunchanged.mp h), hpc⟩

/-- Of the ten bytes of context all but the program counter are taken back before the fault. -/
theorem misguided_return_changes :
    misguided.memory.decodeAt misguided.pc = .ok .interruptReturn ∧
      misguided.step.result = .error (.stackUnderflow 0xF3) ∧
      misguided.registers.get 0 = 0xEB ∧ misguided.step.processor.registers.get 0 = 0 ∧
      misguided.registers.flags.bits = 1 ∧ misguided.step.processor.registers.flags.bits = 0 ∧
      misguided.sp = 0xE0 ∧ misguided.step.processor.sp = 0xF3 := by
  decide +kernel

end Processor

end Microcomputer
