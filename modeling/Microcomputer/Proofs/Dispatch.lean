import Mathlib.Data.Nat.Bitwise
import Microcomputer.Proofs.Execution

/-!
Which line is served, and how its handler is entered.

* `nextLine?_eq_some_iff`: the line to serve next is the lowest one whose bit is set in both status and
  mask, and there is none while a handler runs.
* `Entered` says what the entry into a handler leaves, and `entered_spec` that serving a line leaves it.
* `boundary_of_idle`, `boundary_of_room` and `boundary_of_full`: the three things that can happen at the
  boundary after an instruction; `Outcome` lists all that a step can come to.
* `step_serves_lowest`: what a step adds to the instruction it completes.
-/

namespace Microcomputer

/-- A byte has eight bits. -/
theorem testBit_byte (a : UInt8) {k : Nat} (h : 8 ≤ k) : a.toNat.testBit k = false :=
  Nat.testBit_lt_two_pow (Nat.lt_of_lt_of_le a.toNat_lt (Nat.pow_le_pow_right (by decide) h))

/-- The lowest of the lines whose bits are set. -/
structure LowestLine (active line : UInt8) : Prop where
  set : active.toNat.testBit line.toNat = true
  lowest : ∀ k < line.toNat, active.toNat.testBit k = false

theorem LowestLine.lt {active line : UInt8} (h : LowestLine active line) : line.toNat < 8 := by
  rcases Nat.lt_or_ge line.toNat 8 with hlt | hge
  · exact hlt
  · have hset := h.set
    rw [testBit_byte active hge] at hset
    cases hset

namespace InterruptController

theorem toNat_lineBit (line : UInt8) : (lineBit line).toNat = 2 ^ (line.toNat % 8) := by
  have hlt : line.toNat % 8 < 8 := Nat.mod_lt _ (by decide)
  have hpow : 2 ^ (line.toNat % 8) < 2 ^ 8 := Nat.pow_lt_pow_right (by decide) hlt
  have h8 : (8 : UInt8).toNat = 8 := rfl
  have h1 : (1 : UInt8).toNat = 1 := rfl
  rw [lineBit, UInt8.toNat_shiftLeft, UInt8.toNat_mod, h8, h1, Nat.mod_mod, Nat.one_shiftLeft,
    Nat.mod_eq_of_lt hpow]

/-- Masking with a line's bit reads that bit. -/
theorem and_lineBit_bne_zero (a line : UInt8) :
    (a &&& lineBit line != 0) = a.toNat.testBit (line.toNat % 8) := by
  have hzero : (0 : UInt8).toNat = 0 := rfl
  rw [Bool.eq_iff_iff, bne_iff_ne, ne_eq, ← UInt8.toNat_inj, UInt8.toNat_and, toNat_lineBit,
    Nat.and_two_pow, hzero]
  cases a.toNat.testBit (line.toNat % 8) <;> simp

theorem isPending_eq (c : InterruptController) (line : UInt8) :
    c.isPending line = c.status.toNat.testBit (line.toNat % 8) :=
  and_lineBit_bne_zero _ _

/-- A raise sets the bit of its line and no other. -/
theorem testBit_status_raise (c : InterruptController) (line : UInt8) (k : Nat) :
    (c.raise line).status.toNat.testBit k =
      (c.status.toNat.testBit k || decide (line.toNat % 8 = k)) := by
  show (c.status ||| lineBit line).toNat.testBit k = _
  rw [UInt8.toNat_or, toNat_lineBit, Nat.testBit_or, Nat.testBit_two_pow]

/-- Entering a handler clears the bit of its line and no other. -/
theorem testBit_status_enter (c : InterruptController) (line : UInt8) (k : Nat) :
    (c.enter line).status.toNat.testBit k =
      (c.status.toNat.testBit k && !decide (line.toNat % 8 = k)) := by
  show (c.status &&& ~~~lineBit line).toNat.testBit k = _
  rcases Nat.lt_or_ge k 8 with hk | hk
  · rw [UInt8.toNat_and, Nat.testBit_and, ← UInt8.toNat_toBitVec (~~~lineBit line), UInt8.toBitVec_not,
      BitVec.testBit_toNat, BitVec.getLsbD_not, ← BitVec.testBit_toNat, UInt8.toNat_toBitVec,
      toNat_lineBit, Nat.testBit_two_pow]
    simp [hk]
  · rw [testBit_byte _ hk, testBit_byte _ hk, Bool.false_and]

theorem mod_eight_eq_iff (line l : UInt8) : line % 8 = l % 8 ↔ line.toNat % 8 = l.toNat % 8 := by
  rw [← UInt8.toNat_inj, UInt8.toNat_mod, UInt8.toNat_mod]
  rfl

theorem mod_eight_of_lt {line : UInt8} (h : line.toNat < 8) : line % 8 = line := by
  rw [← UInt8.toNat_inj, UInt8.toNat_mod]
  exact Nat.mod_eq_of_lt h

theorem isPending_congr (c : InterruptController) {line l : UInt8} (h : line % 8 = l % 8) :
    c.isPending line = c.isPending l := by
  rw [isPending_eq, isPending_eq, (mod_eight_eq_iff line l).mp h]

theorem isPending_raise (c : InterruptController) (line l : UInt8) :
    (c.raise line).isPending l = (c.isPending l || decide (line % 8 = l % 8)) := by
  simp only [isPending_eq, testBit_status_raise, mod_eight_eq_iff]

theorem isPending_enter (c : InterruptController) (line l : UInt8) :
    (c.enter line).isPending l = (c.isPending l && !decide (line % 8 = l % 8)) := by
  simp only [isPending_eq, testBit_status_enter, mod_eight_eq_iff]

theorem toNat_getElem_lines (k : Nat) (h : k < lines.length) : lines[k].toNat = k := by
  revert k
  decide

theorem and_lineBit_getElem (a : UInt8) (k : Nat) (h : k < lines.length) :
    (a &&& lineBit lines[k] != 0) = a.toNat.testBit k := by
  rw [and_lineBit_bne_zero, toNat_getElem_lines, Nat.mod_eq_of_lt]
  exact h

/-- Looking for a set bit along the lines finds the lowest one. -/
theorem find?_lines (active line : UInt8) :
    (lines.find? fun l => active &&& lineBit l != 0) = some line ↔ LowestLine active line := by
  rw [List.find?_eq_some_iff_getElem]
  constructor
  · rintro ⟨hset, k, hk, hline, hlow⟩
    have hnat : line.toNat = k := by rw [← hline, toNat_getElem_lines]
    refine ⟨?_, ?_⟩
    · rw [← hline, and_lineBit_getElem] at hset
      rw [hnat]
      exact hset
    · intro j hj
      have hclear := hlow j (hnat ▸ hj)
      rw [and_lineBit_getElem, Bool.not_eq_true_eq_eq_false] at hclear
      exact hclear
  · intro h
    have hk : line.toNat < lines.length := h.lt
    have hline : lines[line.toNat] = line := UInt8.toNat_inj.mp (toNat_getElem_lines _ hk)
    refine ⟨?_, line.toNat, hk, hline, ?_⟩
    · rw [and_lineBit_bne_zero, Nat.mod_eq_of_lt h.lt]
      exact h.set
    · intro j hj
      rw [and_lineBit_getElem, h.lowest j hj]
      rfl

/-- Only an empty set of lines has no lowest one. -/
theorem find?_lines_eq_none (active : UInt8) :
    (lines.find? fun l => active &&& lineBit l != 0) = none ↔ active = 0 := by
  rw [List.find?_eq_none]
  constructor
  · intro h
    apply UInt8.toNat_inj.mp
    apply Nat.eq_of_testBit_eq
    intro k
    rcases Nat.lt_or_ge k 8 with hk | hk
    · have hk' : k < lines.length := hk
      have hclear := h lines[k] (List.getElem_mem hk')
      rw [and_lineBit_getElem] at hclear
      rw [Bool.eq_false_of_not_eq_true hclear]
      exact (Nat.zero_testBit k).symm
    · rw [testBit_byte _ hk, testBit_byte _ hk]
  · rintro rfl line -
    rw [and_lineBit_bne_zero]
    simp

theorem nextLine?_eq_none_iff (c : InterruptController) (mask : UInt8) :
    c.nextLine? mask = none ↔ c.servicing = true ∨ c.status &&& mask = 0 := by
  unfold nextLine?
  cases c.servicing with
  | true => simp
  | false => simpa using find?_lines_eq_none _

theorem nextLine?_eq_some_iff (c : InterruptController) (mask line : UInt8) :
    c.nextLine? mask = some line ↔ c.servicing = false ∧ LowestLine (c.status &&& mask) line := by
  unfold nextLine?
  cases c.servicing with
  | true => simp
  | false => simpa using find?_lines _ _

end InterruptController

theorem exists_lowestLine {active : UInt8} (h : active ≠ 0) : ∃ line, LowestLine active line := by
  open InterruptController in
  cases hfind : lines.find? fun l => active &&& lineBit l != 0 with
  | none => exact absurd ((find?_lines_eq_none active).mp hfind) h
  | some line => exact ⟨line, (find?_lines active line).mp hfind⟩

namespace Processor

/-! ## Entering a handler -/

/-- `t` is `p` as it enters the handler of `line`: the context stands in the ten cells below the old
pointer, and nothing else has changed but what the entry itself needs. -/
structure Entered (p : Processor) (line : UInt8) (t : Processor) : Prop where
  pc : t.pc = p.memory.read (0xF8 + line)
  pending : ∀ k : Nat, t.interrupts.status.toNat.testBit k =
    (p.interrupts.status.toNat.testBit k && k != line.toNat)
  servicing : t.interrupts.servicing = true
  sp : t.sp = p.sp - 10
  savedPc : t.memory.read (p.sp - 1) = p.pc
  savedFlags : t.memory.read (p.sp - 2) = p.registers.flags.bits
  savedRegister : ∀ r : Register, r.val < 7 →
    t.memory.read (p.sp - 3 - UInt8.ofNat r.val) = p.registers.get r
  savedPointer : t.memory.read (p.sp - 10) = p.sp - 9
  register : ∀ r : Register, r ≠ .stackPointer → t.registers.get r = p.registers.get r
  flags : t.registers.flags = p.registers.flags
  ir : t.registers.ir = p.registers.ir
  memory : ∀ a : UInt8, a.toNat + 10 < p.sp.toNat ∨ p.sp.toNat ≤ a.toNat →
    t.memory.read a = p.memory.read a
  surplus : t.memory.surplus = p.memory.surplus
  rest : t = { p with
    registers := t.registers, memory := t.memory, interrupts := t.interrupts }

/-- The processor at the start of a line's handler. -/
def entered (p : Processor) (line : UInt8) : Processor :=
  { p.saved.setPc (p.memory.vector line) with interrupts := p.interrupts.enter line }

theorem dispatch_of_none {p : Processor} (h : p.interrupts.nextLine? p.registers.mask = none) :
    p.dispatch = (p, none) := by
  simp only [dispatch, h]

theorem dispatch_of_full {p : Processor} {line : UInt8}
    (h : p.interrupts.nextLine? p.registers.mask = some line) (hroom : p.stackRoom < 10) :
    p.dispatch = (p, some (.stackOverflow p.sp)) := by
  simp only [dispatch, h, saveContext_of_full hroom]

/-- The vectors stand above every stack, so saving the context cannot change them. -/
theorem vector_saved {p : Processor} (hroom : 10 ≤ p.stackRoom) (line : UInt8) :
    p.saved.memory.vector line = p.memory.vector line := by
  obtain ⟨htop, hend⟩ := (p.le_stackRoom_iff (by decide)).mp hroom
  have hline : (line &&& 7).toNat ≤ 7 := by
    rw [UInt8.toNat_and]
    exact Nat.and_le_right
  have hvector : (Memory.vectorCell line).toNat = 0xF8 + (line &&& 7).toNat := by
    have hbase : vectorBase.toNat = 0xF8 := rfl
    rw [Memory.vectorCell, UInt8.toNat_add, hbase]
    omega
  apply read_saved_of_far
  · omega
  · right
    rw [hvector]
    omega

theorem dispatch_of_room {p : Processor} {line : UInt8}
    (h : p.interrupts.nextLine? p.registers.mask = some line) (hroom : 10 ≤ p.stackRoom) :
    p.dispatch = (p.entered line, none) := by
  simp only [dispatch, h, saveContext_of_room hroom, vector_saved hroom]
  rfl

/-- What was read of a slot before an entry stands at its offset below the old pointer. -/
theorem read_entered (p : Processor) (line : UInt8) (s : Slot) (h : s ≠ Slot.pointer) :
    (p.entered line).memory.read (p.sp - s.offset) = s.get p := by
  show p.saved.memory.read _ = _
  rw [read_saved, if_neg h]

theorem entered_spec {p : Processor} {line : UInt8} (hline : line.toNat < 8)
    (hroom : 10 ≤ p.stackRoom) : p.Entered line (p.entered line) := by
  obtain ⟨htop, hend⟩ := (p.le_stackRoom_iff (by decide)).mp hroom
  have hmod : line.toNat % 8 = line.toNat := Nat.mod_eq_of_lt hline
  constructor
  case pc =>
    have hand : line &&& 7 = line := by
      rw [← UInt8.toNat_inj, UInt8.toNat_and]
      exact (Nat.and_two_pow_sub_one_eq_mod line.toNat 3).trans hmod
    show p.memory.read (Memory.vectorCell line) = _
    rw [Memory.vectorCell, hand]
    rfl
  case pending =>
    intro k
    show (p.interrupts.enter line).status.toNat.testBit k = _
    rw [InterruptController.testBit_status_enter, hmod]
    by_cases hk : k = line.toNat
    · simp [hk]
    · simp [hk, Ne.symm hk]
  case servicing => rfl
  case sp => exact p.sp_setSp _
  case savedPc => exact p.read_entered line .pc (by decide)
  case savedFlags => exact p.read_entered line .flags (by decide)
  case savedRegister =>
    intro r hr
    have hne : Slot.register r ≠ Slot.pointer := by
      rintro ⟨⟩
      exact absurd hr (by decide)
    have hsaved := p.read_entered line (.register r) hne
    rw [show p.sp - 3 - UInt8.ofNat r.val = p.sp - (Slot.register r).offset from ?_]
    · exact hsaved
    · show _ = p.sp - (UInt8.ofNat r.val + 3)
      grind
  case savedPointer =>
    have hsaved := p.read_saved Slot.pointer
    rw [if_pos rfl] at hsaved
    exact hsaved
  case register =>
    intro r hr
    exact (RegisterFile.get_set _ _ _ _).trans (if_neg (Ne.symm hr))
  case flags => rfl
  case ir => rfl
  case memory => exact fun a ha => p.read_saved_of_far a (by omega) ha
  case surplus => exact Memory.surplus_writeDown _ _ _
  case rest => rfl

/-! ## The boundary after an instruction -/

/-- No line is served: the processor has stopped, a handler runs, or no pending line is unmasked. -/
def Idle (p : Processor) : Prop :=
  p.state ≠ .running ∨ p.interrupts.servicing = true ∨ p.interrupts.status &&& p.registers.mask = 0

/-- The line that the processor has to serve. -/
def Serves (p : Processor) (line : UInt8) : Prop :=
  p.state = .running ∧ p.interrupts.servicing = false ∧
    LowestLine (p.interrupts.status &&& p.registers.mask) line

theorem idle_or_serves (p : Processor) : p.Idle ∨ ∃ line, p.Serves line := by
  by_cases hrun : p.state = .running
  · cases hserving : p.interrupts.servicing with
    | true => exact .inl (.inr (.inl hserving))
    | false =>
      by_cases hactive : p.interrupts.status &&& p.registers.mask = 0
      · exact .inl (.inr (.inr hactive))
      · obtain ⟨line, hlow⟩ := exists_lowestLine hactive
        exact .inr ⟨line, hrun, hserving, hlow⟩
  · exact .inl (.inl hrun)

theorem boundary_of_idle {p : Processor} (h : p.Idle) : p.boundary = (p, none) := by
  unfold boundary
  split
  · next hrun =>
    have hnone := (p.interrupts.nextLine?_eq_none_iff _).mpr (h.resolve_left (not_not_intro hrun))
    exact dispatch_of_none hnone
  · rfl

theorem boundary_of_room {p : Processor} {line : UInt8} (h : p.Serves line)
    (hroom : 10 ≤ p.stackRoom) : p.boundary = (p.entered line, none) := by
  obtain ⟨hrun, hserves⟩ := h
  rw [boundary, if_pos hrun]
  exact dispatch_of_room ((p.interrupts.nextLine?_eq_some_iff _ _).mpr hserves) hroom

/-- A line whose context finds no room is a fault that changes nothing. -/
theorem boundary_of_full {p : Processor} {line : UInt8} (h : p.Serves line)
    (hroom : p.stackRoom < 10) : p.boundary = (p, some (.stackOverflow p.sp)) := by
  obtain ⟨hrun, hserves⟩ := h
  rw [boundary, if_pos hrun]
  exact dispatch_of_full ((p.interrupts.nextLine?_eq_some_iff _ _).mpr hserves) hroom

section

variable {p done : Processor} {i : Instruction Register} {printed : Option Printed}

theorem step_of_idle (h : p.Completes i printed done) (hidle : done.Idle) :
    p.step = ⟨done, printed, .ok i⟩ := by
  rw [step_of_completes h, boundary_of_idle hidle]

theorem step_of_room {line : UInt8} (h : p.Completes i printed done) (hserves : done.Serves line)
    (hroom : 10 ≤ done.stackRoom) : p.step = ⟨done.entered line, printed, .ok i⟩ := by
  rw [step_of_completes h, boundary_of_room hserves hroom]

theorem step_of_full {line : UInt8} (h : p.Completes i printed done) (hserves : done.Serves line)
    (hroom : done.stackRoom < 10) :
    p.step = ⟨done.stop (.stackOverflow done.sp), printed, .error (.stackOverflow done.sp)⟩ := by
  rw [step_of_completes h, boundary_of_full hserves hroom]

/-- Everything that a step can come to. -/
inductive Outcome (p : Processor) : StepOutcome → Prop
  | stopped (stopped : p.state ≠ .running) : Outcome p ⟨p, none, .error (.notRunning p.state)⟩
  | undecoded {e : DecodeError} (run : p.state = .running)
      (decode : p.memory.decodeAt p.pc = .error e) :
      Outcome p ⟨p.stop (.ofDecodeError p.pc e), none, .error (.ofDecodeError p.pc e)⟩
  | failed {i : Instruction Register} {q : Processor} {f : Fault} (run : p.state = .running)
      (decode : p.memory.decodeAt p.pc = .ok i) (execute : p.execute i = .failed q f) :
      Outcome p ⟨q.stop f, none, .error f⟩
  | idle {i : Instruction Register} {printed : Option Printed} {done : Processor}
      (completes : p.Completes i printed done) (idle : done.Idle) : Outcome p ⟨done, printed, .ok i⟩
  | served {i : Instruction Register} {printed : Option Printed} {done : Processor} {line : UInt8}
      (completes : p.Completes i printed done) (serves : done.Serves line)
      (room : 10 ≤ done.stackRoom) : Outcome p ⟨done.entered line, printed, .ok i⟩
  | unserved {i : Instruction Register} {printed : Option Printed} {done : Processor} {line : UInt8}
      (completes : p.Completes i printed done) (serves : done.Serves line)
      (full : done.stackRoom < 10) :
      Outcome p ⟨done.stop (.stackOverflow done.sp), printed, .error (.stackOverflow done.sp)⟩

theorem outcome_step (p : Processor) : p.Outcome p.step := by
  by_cases hrun : p.state = .running
  · rcases step_cases hrun with ⟨e, he⟩ | ⟨i, q, f, hi, hf⟩ | ⟨i, printed, done, hdone⟩
    · rw [step_of_decodeError hrun he]
      exact .undecoded hrun he
    · rw [step_of_failed hrun hi hf]
      exact .failed hrun hi hf
    · rcases done.idle_or_serves with hidle | ⟨line, hserves⟩
      · rw [step_of_idle hdone hidle]
        exact .idle hdone hidle
      · rcases Nat.lt_or_ge done.stackRoom 10 with hroom | hroom
        · rw [step_of_full hdone hserves hroom]
          exact .unserved hdone hserves hroom
        · rw [step_of_room hdone hserves hroom]
          exact .served hdone hserves hroom
  · rw [step_of_not_running hrun]
    exact .stopped hrun

/-- A completed instruction that leaves the processor running is followed by the entry into the handler of
the lowest line that is then pending and unmasked, if no handler runs and the context finds room. -/
theorem step_serves_lowest (h : p.Completes i printed done) :
    (done.state = .running →
      (done.interrupts.servicing = true ∨ done.interrupts.status &&& done.registers.mask = 0 →
        p.step = ⟨done, printed, .ok i⟩) ∧
      (done.interrupts.servicing = false → done.interrupts.status &&& done.registers.mask ≠ 0 →
        10 ≤ done.stackRoom →
          ∃ line t, LowestLine (done.interrupts.status &&& done.registers.mask) line ∧
            p.step = ⟨t, printed, .ok i⟩ ∧ done.Entered line t)) ∧
    (done.state ≠ .running → p.step = ⟨done, printed, .ok i⟩) := by
  refine ⟨fun hrun => ⟨fun hidle => ?_, fun hclear hactive hroom => ?_⟩, fun hhalt => ?_⟩
  · exact step_of_idle h (.inr hidle)
  · obtain ⟨line, hlow⟩ := exists_lowestLine hactive
    exact ⟨line, _, hlow, step_of_room h ⟨hrun, hclear, hlow⟩ hroom, entered_spec hlow.lt hroom⟩
  · exact step_of_idle h (.inl hhalt)

end

/-- With lines 1 and 5 pending and lines 3 and 5 unmasked, the program raises line 3. -/
def interrupting : Processor :=
  ((powerOn.load [0x82, 5, 0x28, 0x82, 0, 11, 0x52, 0]).1.step.processor.step.processor.raise 5).raise 1

def interrupted : Processor := (interrupting.raise 11).retire (.interrupt .first) 8

theorem interrupting_served :
    ∃ line t, LowestLine (interrupted.interrupts.status &&& interrupted.registers.mask) line ∧
      interrupting.step = ⟨t, none, .ok (.interrupt .first)⟩ ∧ interrupted.Entered line t := by
  have hcompletes : interrupting.Completes (.interrupt .first) none interrupted :=
    ⟨rfl, rfl, _, _, rfl, rfl⟩
  exact ((step_serves_lowest hcompletes).1 rfl).2 rfl (by decide) (by decide)

end Processor

end Microcomputer
