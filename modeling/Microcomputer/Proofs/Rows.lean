import Microcomputer.Proofs.Arithmetic
import Microcomputer.Proofs.Confinement
import Microcomputer.Proofs.Opcodes

/-!
What each instruction does, over integers.

`row` is the instruction table: for each instruction, the registers and the cell that it names with their new
values, where execution goes on, and what it prints. All of them are read before anything is written.
`Gives` reads a row as a statement about the processor after the instruction, in which everything that the
row does not name is as it was.

* `describes_row`: the execute phase does what the row says, one case for each instruction.
* `testBit_interruptsAfter` and `servicing_interruptsAfter`: so it is with the interrupt lines.
* `completes_row`: a completed instruction leaves the one processor that its row gives, and no other.
-/

namespace Microcomputer

/-! ## The table -/

/-- A row of the instruction table: what an instruction names, and the new values, as integers. -/
structure Instruction.Row where
  /-- The bytes that the instruction takes. -/
  size : Nat
  registers : Register → Option Int := fun _ => none
  cell : Nat → Option Int := fun _ => none
  /-- Where execution goes on, unless it goes on after the instruction. -/
  target : Option Int := none
  flags : Option Int := none
  /-- The interrupt line that is raised. -/
  raises : Option Nat := none
  /-- Whether a handler is left. -/
  leaves : Bool := false
  halts : Bool := false
  prints : Option Printed := none

/-- The one named thing and its new value. -/
def only {α : Type} [DecidableEq α] (a : α) (v : Int) : α → Option Int :=
  fun b => if b = a then some v else none

namespace Processor

/-- The number in a register. -/
def number (p : Processor) (r : Register) : Nat := (p.registers.get r).toNat

/-- The number in the cell at an address, which is taken modulo 256. -/
def numberAt (p : Processor) (a : Nat) : Nat := (p.memory.read (UInt8.ofNat a)).toNat

/-- The row of an instruction. -/
def row (p : Processor) : Instruction Register → Instruction.Row
  | .nop => { size := 1 }
  | .halt => { size := 1, halts := true }
  | .loadImmediate target v => { size := 3, registers := only target v.toNat }
  | .load target address => { size := 3, registers := only target (p.numberAt (p.number address)) }
  | .store address source =>
    { size := 3
      cell := if p.number address = 0xF4 then fun _ => none
        else only (p.number address) (p.number source) }
  | .alu op target source =>
    match op.integer? (p.number target) (p.number source) with
    | some x => { size := if op.isUnary then 2 else 3, registers := only target x }
    | none => { size := 3, flags := some (comparison (p.number target) (p.number source)) }
  | .addImmediate target v =>
    { size := 3, registers := only target (((p.number target : Int) + v.toNat) % 256) }
  | .push source =>
    { size := 2
      registers := only .stackPointer ((p.number .stackPointer : Int) - 1)
      cell := only (p.number .stackPointer - 1) (p.number source) }
  | .pop target =>
    { size := 2
      registers := fun r =>
        (only target (p.numberAt (p.number .stackPointer)) r).or
          (only .stackPointer ((p.number .stackPointer : Int) + 1) r) }
  | .call address =>
    { size := 2
      registers := only .stackPointer ((p.number .stackPointer : Int) - 1)
      cell := only (p.number .stackPointer - 1) (((p.pc.toNat : Int) + 2) % 256)
      target := some (p.number address) }
  | .ret =>
    { size := 1
      registers := only .stackPointer ((p.number .stackPointer : Int) + 1)
      target := some (p.numberAt (p.number .stackPointer)) }
  | .jump condition address =>
    { size := 2
      target := if condition.met p.registers.flags.bits.toNat then some (p.number address) else none }
  | .interrupt line => { size := 2, raises := some (p.number line % 8) }
  | .interruptReturn =>
    -- The first byte taken back is the pointer that the other nine are taken back through.
    let saved := p.numberAt (p.number .stackPointer)
    { size := 1
      registers := fun r =>
        if r = .stackPointer then some ((saved : Int) + 9) else some (p.numberAt (saved + 6 - r.val))
      flags := some (p.numberAt (saved + 7))
      target := some (p.numberAt (saved + 8))
      leaves := true }
  | .printNumber source =>
    { size := 2
      prints := some (.number (if p.number source < 128 then p.number source
        else (p.number source : Int) - 256)) }
  | .printChar source => { size := 2, prints := some (.char (Char.ofNat (p.number source))) }
  | .printText first last =>
    { size := 3
      prints := some (.text (String.ofList
        ((List.range' (p.number first) (p.number last + 1 - p.number first)).map fun a =>
          Char.ofNat (p.numberAt a)))) }

theorem size_row (p : Processor) (i : Instruction Register) : (p.row i).size = i.length := by
  cases i with
  | alu op target source =>
    cases op <;> (simp only [row, AluOp.integer?, Instruction.length, Instruction.opcode]; decide)
  | jump condition address =>
    cases condition <;> (simp only [row, Instruction.length, Instruction.opcode]; decide)
  | _ => simp only [row, Instruction.length, Instruction.opcode]; decide

end Processor

/-- The execute phase takes `p` to `q`, goes on at `next` and prints as the row says. What the row does not
name stays. -/
structure Instruction.Row.Describes (row : Row) (p q : Processor) (next : UInt8)
    (printed : Option Printed) : Prop where
  register : ∀ r, ((q.registers.get r).toNat : Int) = (row.registers r).getD (p.registers.get r).toNat
  cell : ∀ a : UInt8, ((q.memory.read a).toNat : Int) = (row.cell a.toNat).getD (p.memory.read a).toNat
  next : (next.toNat : Int) = row.target.getD ((p.pc.toNat + row.size : Int) % 256)
  flags : (q.registers.flags.bits.toNat : Int) = row.flags.getD p.registers.flags.bits.toNat
  printed : printed = row.prints

namespace Processor

section

variable {p q : Processor} {i : Instruction Register} {next : UInt8} {printed : Option Printed}

/-- An instruction that does not say where execution goes on is followed by the next one. -/
theorem toNat_following (p : Processor) (i : Instruction Register) :
    ((p.registers.pc + UInt8.ofNat i.length).toNat : Int) = (p.pc.toNat + (p.row i).size : Int) % 256 := by
  have hlength := i.length_bounds
  have hpc : p.registers.pc = p.pc := rfl
  rw [size_row, UInt8.toNat_add, UInt8.toNat_ofNat', hpc]
  omega

theorem toNat_get_set (f : RegisterFile) (r s : Register) {v : UInt8} {x : Int} (hx : (v.toNat : Int) = x) :
    (((f.set r v).get s).toNat : Int) = (only r x s).getD (f.get s).toNat := by
  rw [RegisterFile.get_set, only]
  by_cases h : r = s
  · rw [if_pos h, if_pos h.symm]
    exact hx
  · rw [if_neg h, if_neg (Ne.symm h)]
    rfl

theorem toNat_read_write (m : Memory) {a v : UInt8} {k : Nat} {x : Int} (hk : a.toNat = k)
    (hx : (v.toNat : Int) = x) (b : UInt8) :
    (((m.write a v).read b).toNat : Int) = (only k x b.toNat).getD (m.read b).toNat := by
  rw [Memory.read_write, only]
  by_cases h : a = b
  · subst h
    rw [if_pos rfl, if_pos hk]
    exact hx
  · have hne : b.toNat ≠ k := by
      rw [← hk]
      exact fun e => h (UInt8.toNat_inj.mp e).symm
    rw [if_neg h, if_neg hne]
    rfl

theorem numberAt_toNat (p : Processor) (a : UInt8) : p.numberAt a.toNat = (p.memory.read a).toNat := by
  rw [numberAt, UInt8.ofNat_toNat]

/-- An instruction that sets one register. -/
theorem describes_set {target : Register} {v : UInt8} {x : Int} (hx : (v.toNat : Int) = x)
    (hrow : p.row i = { size := (p.row i).size, registers := only target x }) :
    (p.row i).Describes p (p.setRegister target v) (p.registers.pc + UInt8.ofNat i.length) none := by
  have hnext := p.toNat_following i
  rw [hrow] at hnext ⊢
  exact ⟨fun r => toNat_get_set _ _ _ hx, fun _ => rfl, hnext, rfl, rfl⟩

/-- An instruction that pushes a byte. -/
theorem describes_push {v : UInt8} {x : Int} {target : Option Int} (hpush : p.push v = (q, none))
    (hx : (v.toNat : Int) = x)
    (hrow : p.row i =
      { size := (p.row i).size
        registers := only .stackPointer ((p.number .stackPointer : Int) - 1)
        cell := only (p.number .stackPointer - 1) x
        target })
    (hnext : (next.toNat : Int) = target.getD ((p.pc.toNat + (p.row i).size : Int) % 256)) :
    (p.row i).Describes p q next none := by
  -- The pointer does not wrap, so moving it down is subtracting one from its number.
  obtain ⟨hdown, -⟩ := push_confined hpush
  rw [sp_of_push hpush] at hdown
  obtain ⟨-, rfl⟩ := eq_of_push hpush
  have hnumber : p.sp.toNat = p.number .stackPointer := rfl
  rw [hrow]
  refine ⟨fun r => toNat_get_set _ _ _ ?_, fun a => toNat_read_write _ ?_ hx a, hnext, rfl, rfl⟩
  · omega
  · omega

/-- A pop reads the cell at the pointer, which then moves up without wrapping. -/
theorem number_of_pop {v : UInt8} (hpop : p.pop = (q, .ok v)) :
    q = p.setSp (p.sp + 1) ∧ (v.toNat : Int) = p.numberAt (p.number .stackPointer) ∧
      ((p.sp + 1).toNat : Int) = (p.number .stackPointer : Int) + 1 := by
  obtain ⟨hdepth, rfl, rfl⟩ := eq_of_pop hpop
  refine ⟨rfl, congrArg Int.ofNat (p.numberAt_toNat p.sp).symm, ?_⟩
  have hlow := (p.le_stackDepth_iff (by decide)).mp hdepth
  have hsp : p.sp.toNat = p.number .stackPointer := rfl
  have hone : (1 : UInt8).toNat = 1 := rfl
  rw [UInt8.toNat_add]
  omega

/-- The pointer comes back nine above the saved one, and every other slot from the cells between. -/
theorem number_of_restored {saved : Nat} (h : p.restoreContext = (q, none))
    (hsaved : p.numberAt (p.number .stackPointer) = saved) :
    q.sp.toNat = saved + 9 ∧
      ∀ s ≠ Slot.pointer, (s.get q).toNat = p.numberAt (saved + 9 - s.offset.toNat) := by
  obtain ⟨hdepth, hhigh⟩ := p.restoreContext_eq_none_iff.mp (congrArg Prod.snd h)
  obtain ⟨-, hsp, hslot⟩ := restoreContext_spec p hdepth hhigh
  have hread : (p.memory.read p.sp).toNat = saved := by
    rw [← hsaved]
    exact (p.numberAt_toNat p.sp).symm
  have hnine : (9 : UInt8).toNat = 9 := rfl
  rw [h] at hsp hslot
  refine ⟨?_, ?_⟩
  · rw [hsp, UInt8.toNat_add]
    omega
  · intro s hs
    have hoffset := s.offset_le_nine hs
    have haddress : p.memory.read p.sp + 9 - s.offset = UInt8.ofNat (saved + 9 - s.offset.toNat) := by
      rw [UInt8.ofNat_sub (by omega), UInt8.ofNat_add, UInt8.ofNat_toNat, ← hread, UInt8.ofNat_toNat]
      rfl
    rw [hslot s hs, haddress]
    rfl

theorem describes_restored (h : p.restoreContext = (q, none)) (interrupts : InterruptController) :
    (p.row .interruptReturn).Describes p { q with interrupts } q.pc none := by
  obtain ⟨hsp, hslot⟩ := number_of_restored h rfl
  have hsame := sameBesideRegisters_restoreContext p
  rw [h] at hsame
  have hmemory : q.memory = p.memory := hsame.memory
  refine ⟨fun r => ?_, fun a => ?_, congrArg Int.ofNat (hslot .pc (by decide)),
    congrArg Int.ofNat (hslot .flags (by decide)), rfl⟩
  · simp only [row]
    split
    · next hr =>
      subst hr
      exact congrArg Int.ofNat hsp
    · next hr =>
      -- The program counter and the flags are saved above the registers.
      have hoffset : (Slot.register r).offset.toNat = r.val + 3 := by
        revert r
        decide
      have hregister := hslot (.register r) (by simpa [Slot.pointer] using hr)
      rw [hoffset, show ∀ n, n + 9 - (r.val + 3) = n + 6 - r.val from fun n => by omega] at hregister
      exact congrArg Int.ofNat hregister
  · exact congrArg (fun m : Memory => ((m.read a).toNat : Int)) hmemory

/-- The execute phase does what the row says. -/
theorem describes_row (h : p.execute i = .completed q next printed) :
    (p.row i).Describes p q next printed := by
  have hnext := p.toNat_following i
  cases i with
  | nop | halt | interrupt | printNumber | printChar =>
    cases h
    exact ⟨fun _ => rfl, fun _ => rfl, hnext, rfl, rfl⟩
  | loadImmediate target v =>
    cases h
    exact describes_set rfl rfl
  | load target address =>
    cases h
    exact describes_set (congrArg Int.ofNat (p.numberAt_toNat _).symm) rfl
  | store address source =>
    obtain ⟨rfl, rfl, rfl⟩ := store_of_completed h
    split
    · next hkey =>
      have hnumber : p.number address = 0xF4 := congrArg UInt8.toNat hkey
      refine ⟨fun _ => rfl, fun _ => ?_, hnext, rfl, rfl⟩
      simp only [row, if_pos hnumber]
      rfl
    · next hkey =>
      have hnumber : p.number address ≠ 0xF4 := fun e => hkey (UInt8.toNat_inj.mp e)
      refine ⟨fun _ => rfl, fun a => ?_, hnext, rfl, rfl⟩
      simp only [row, if_neg hnumber]
      exact toNat_read_write _ rfl rfl a
  | alu op target source =>
    obtain ⟨⟨v, hv, rfl⟩ | ⟨f, hf, rfl⟩, rfl, rfl⟩ := alu_of_completed h
    · have hx : op.integer? (p.number target) (p.number source) = some (v.toNat : Int) :=
        AluOp.compute_eq_value hv
      exact describes_set rfl (by simp only [row, hx])
    · obtain ⟨hx, hbits⟩ := AluOp.compute_eq_flags hf
      have hx : op.integer? (p.number target) (p.number source) = none := hx
      simp only [row, hx] at hnext ⊢
      exact ⟨fun _ => rfl, fun _ => rfl, hnext, congrArg Int.ofNat hbits, rfl⟩
  | addImmediate target v =>
    cases h
    exact describes_set (by rw [UInt8.toNat_add]; rfl) rfl
  | push source =>
    obtain ⟨hpush, rfl, rfl⟩ := push_of_completed h
    exact describes_push hpush rfl rfl hnext
  | pop target =>
    obtain ⟨v, r, hpop, rfl, rfl, rfl⟩ := pop_of_completed h
    obtain ⟨rfl, hv, hsp⟩ := number_of_pop hpop
    refine ⟨fun r => ?_, fun _ => rfl, hnext, rfl, rfl⟩
    -- A pointer that is popped replaces the pointer's own move.
    simp only [row, Option.getD_or]
    rw [← toNat_get_set p.registers _ r hsp]
    exact toNat_get_set _ target r hv
  | call address =>
    obtain ⟨hpush, rfl, rfl⟩ := call_of_completed h
    exact describes_push hpush hnext rfl rfl
  | ret =>
    obtain ⟨hpop, rfl⟩ := ret_of_completed h
    obtain ⟨rfl, hv, hsp⟩ := number_of_pop hpop
    exact ⟨fun r => toNat_get_set _ _ _ hsp, fun _ => rfl, hv, rfl, rfl⟩
  | jump condition address =>
    cases h
    refine ⟨fun _ => rfl, fun _ => rfl, ?_, rfl, rfl⟩
    rw [Condition.holds_eq_met]
    simp only [row]
    split
    · rfl
    · exact hnext
  | interruptReturn =>
    obtain ⟨r, hr, rfl, rfl, rfl⟩ := interruptReturn_of_completed h
    exact describes_restored hr _
  | printText first last =>
    cases h
    refine ⟨fun _ => rfl, fun _ => rfl, hnext, rfl, ?_⟩
    simp only [row, Printed.ofBytes, addressRange_eq, List.map_map]
    rfl

/-! ## The whole processor -/

/-- What an instruction does to the interrupt lines is in its row. -/
theorem testBit_interruptsAfter (p : Processor) (i : Instruction Register) (k : Nat) :
    (p.interruptsAfter i).status.toNat.testBit k =
      (p.interrupts.status.toNat.testBit k || decide ((p.row i).raises = some k)) := by
  cases i with
  | interrupt line =>
    show (p.interrupts.raise (p.registers.get line)).status.toNat.testBit k = _
    rw [InterruptController.testBit_status_raise]
    simp [row, number]
  | alu op target source => cases op <;> simp [interruptsAfter, row, AluOp.integer?]
  | _ => simp [interruptsAfter, row, InterruptController.leave]

theorem servicing_interruptsAfter (p : Processor) (i : Instruction Register) :
    (p.interruptsAfter i).servicing = (p.interrupts.servicing && !(p.row i).leaves) := by
  cases i with
  | alu op target source => cases op <;> simp [interruptsAfter, row, AluOp.integer?]
  | _ => simp [interruptsAfter, row, InterruptController.leave, InterruptController.raise]

theorem halts_row (p : Processor) (i : Instruction Register) : (p.row i).halts = true ↔ i = .halt := by
  cases i with
  | alu op target source => cases op <;> simp [row, AluOp.integer?]
  | _ => simp [row]

end

end Processor

theorem InterruptController.ext_testBit {c d : InterruptController}
    (hbit : ∀ k, c.status.toNat.testBit k = d.status.toNat.testBit k) (hs : c.servicing = d.servicing) :
    c = d := by
  obtain ⟨cs, cb⟩ := c
  obtain ⟨ds, db⟩ := d
  obtain rfl : cs = ds := UInt8.toNat_inj.mp (Nat.eq_of_testBit_eq hbit)
  obtain rfl : cb = db := hs
  rfl

/-- The processor that a row gives, and what it prints. Next to what the row names, the instruction's opcode
and bytes go on record and it is counted; everything else is as it was. -/
structure Instruction.Row.Gives (row : Row) (p : Processor) (i : Instruction Register)
    (printed : Option Printed) (done : Processor) : Prop where
  register : ∀ r, (done.number r : Int) = (row.registers r).getD (p.number r)
  cell : ∀ a : UInt8, (done.numberAt a.toNat : Int) = (row.cell a.toNat).getD (p.numberAt a.toNat)
  pc : (done.pc.toNat : Int) = row.target.getD ((p.pc.toNat + row.size : Int) % 256)
  ir : done.registers.ir = p.memory.read p.pc
  flags : (done.registers.flags.bits.toNat : Int) = row.flags.getD p.registers.flags.bits.toNat
  pending : ∀ k, done.interrupts.status.toNat.testBit k =
    (p.interrupts.status.toNat.testBit k || decide (row.raises = some k))
  servicing : done.interrupts.servicing = (p.interrupts.servicing && !row.leaves)
  state : done.state = if row.halts then .halted else p.state
  printed : printed = row.prints
  surplus : done.memory.surplus = p.memory.surplus
  cycles : done.cycles = p.cycles + 1
  fault : done.fault = p.fault
  programEnd : done.programEnd = p.programEnd
  lastInstruction : done.lastInstruction = some i.raw

namespace Processor

variable {p q done : Processor} {i : Instruction Register} {printed : Option Printed}

theorem gives_of_completes (h : p.Completes i printed done) : (p.row i).Gives p i printed done := by
  obtain ⟨-, hdecode, q, next, hexec, rfl⟩ := h
  have heffect := effect_of_execute hexec
  have hrow := describes_row hexec
  have hhalts := p.halts_row i
  exact {
    register := hrow.register
    cell := fun a => by
      rw [numberAt_toNat, numberAt_toNat]
      exact hrow.cell a
    pc := hrow.next
    ir := Instruction.opcode_of_decode hdecode
    flags := hrow.flags
    pending := fun k => by
      rw [← testBit_interruptsAfter, ← heffect.interrupts]
      rfl
    servicing := by
      rw [← servicing_interruptsAfter, ← heffect.interrupts]
      rfl
    state := by
      simp only [hhalts]
      exact heffect.state
    printed := hrow.printed
    surplus := heffect.surplus
    cycles := congrArg (· + 1) heffect.cycles
    fault := heffect.fault
    programEnd := heffect.programEnd
    lastInstruction := rfl }

/-- A row gives one processor only. -/
theorem eq_of_gives {row : Instruction.Row} {other : Option Printed} (hq : row.Gives p i other q)
    (hdone : row.Gives p i printed done) : q = done ∧ other = printed := by
  have hbytes {a b : UInt8} {x : Int} (ha : (a.toNat : Int) = x) (hb : (b.toNat : Int) = x) : a = b :=
    UInt8.toNat_inj.mp (by omega)
  have hregisters : q.registers = done.registers := by
    apply RegisterFile.ext_get
    · intro r
      exact hbytes (hq.register r) (hdone.register r)
    · exact hbytes hq.pc hdone.pc
    · exact hq.ir.trans hdone.ir.symm
    · exact congrArg Flags.mk (hbytes hq.flags hdone.flags)
  have hmemory : q.memory = done.memory := by
    apply Memory.ext_read
    · intro a
      have hcell := (hq.cell a).trans (hdone.cell a).symm
      rw [numberAt_toNat, numberAt_toNat] at hcell
      exact hbytes hcell rfl
    · exact hq.surplus.trans hdone.surplus.symm
  have hinterrupts : q.interrupts = done.interrupts := by
    apply InterruptController.ext_testBit
    · intro k
      rw [hq.pending, hdone.pending]
    · exact hq.servicing.trans hdone.servicing.symm
  refine ⟨?_, hq.printed.trans hdone.printed.symm⟩
  obtain ⟨qr, qm, qi, qs, qc, qf, qe, ql⟩ := q
  obtain ⟨dr, dm, di, ds, dc, df, de, dl⟩ := done
  obtain rfl : qr = dr := hregisters
  obtain rfl : qm = dm := hmemory
  obtain rfl : qi = di := hinterrupts
  obtain rfl : qs = ds := hq.state.trans hdone.state.symm
  obtain rfl : qc = dc := hq.cycles.trans hdone.cycles.symm
  obtain rfl : qf = df := hq.fault.trans hdone.fault.symm
  obtain rfl : qe = de := hq.programEnd.trans hdone.programEnd.symm
  obtain rfl : ql = dl := hq.lastInstruction.trans hdone.lastInstruction.symm
  rfl

/-- An instruction that completes leaves exactly the processor that its row gives, and prints what the row
says. -/
theorem completes_row (h : p.Completes i printed done) :
    (p.row i).Gives p i printed done ∧
      ∀ other q, (p.row i).Gives p i other q → q = done ∧ other = printed := by
  have hdone := gives_of_completes h
  exact ⟨hdone, fun other q hq => eq_of_gives hq hdone⟩

/-- The image is a push of the pointer itself. -/
def pushing : Processor := (powerOn.load [0x45, 7]).1

/-- The pointer is stored as it was before the push. -/
theorem pushing_stores_pointer :
    ∃ done, pushing.Completes (.push .stackPointer) none done ∧ done.number .stackPointer = 0xF2 ∧
      done.numberAt 0xF2 = 0xF3 ∧ done.pc.toNat = 2 := by
  have hcompletes : pushing.Completes (.push .stackPointer) none _ := ⟨rfl, rfl, _, _, rfl, rfl⟩
  obtain ⟨hgives, -⟩ := completes_row hcompletes
  have hsp : ((_ : Processor).number .stackPointer : Int) = 0xF2 := hgives.register .stackPointer
  have hcell : ((_ : Processor).numberAt 0xF2 : Int) = 0xF3 := hgives.cell 0xF2
  have hpc : ((_ : Processor).pc.toNat : Int) = 2 := hgives.pc
  exact ⟨_, hcompletes, Int.ofNat_inj.mp hsp, Int.ofNat_inj.mp hcell, Int.ofNat_inj.mp hpc⟩

end Processor

end Microcomputer
