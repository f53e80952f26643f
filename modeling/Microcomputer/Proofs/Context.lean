import Mathlib.Data.List.Nodup
import Microcomputer.Processor.Stack

/-!
Saving and restoring the context.

* `pushSlots_eq`: with room for all of them, pushing slots stores their bytes downwards from the pointer,
  moves the pointer and changes nothing else. `saveContext_of_room` and `saveContext_of_full` say that
  saving the context does all of this or nothing.
* `read_saved`: where each slot's byte stands after that.
* `popSlots_spec`: slots other than the pointer's are filled from consecutive cells, as long as the stack
  is deep enough, and `popSlots_take_beside` says so of the first few of the context; `popSlots_of_shallow`
  says which fault they meet where it is not.
* `restoreContext_spec`: restoring the context through a saved pointer that leaves nine cells above it.
  `restoreContext_of_shallow` and `restoreContext_of_high` are the two ways in which restoring fails, and
  `restoreContext_eq_none_iff` says when it succeeds.
-/

namespace Microcomputer

theorem RegisterFile.ext_get {f g : RegisterFile} (hb : ∀ r, f.get r = g.get r) (hp : f.pc = g.pc)
    (hi : f.ir = g.ir) (hf : f.flags = g.flags) : f = g := by
  obtain ⟨fb, fp, fi, ff⟩ := f
  obtain ⟨gb, gp, gi, gf⟩ := g
  obtain rfl : fb = gb := by
    apply Vector.ext
    intro k hk
    exact hb ⟨k, hk⟩
  simp_all

theorem RegisterFile.set_set (f : RegisterFile) (r : Register) (v w : UInt8) :
    (f.set r v).set r w = f.set r w := by
  simp [set]

theorem RegisterFile.set_get (f : RegisterFile) (r : Register) : f.set r (f.get r) = f := by
  apply ext_get
  · intro s
    rw [get_set]
    split
    · next h => rw [h]
    · rfl
  all_goals rfl

/-! ## Bytes stored downwards -/

namespace Memory

/-- Stores bytes one below the other, the first one just below `a`. -/
def writeDown (m : Memory) (a : UInt8) : List UInt8 → Memory
  | [] => m
  | v :: rest => (m.write (a - 1) v).writeDown (a - 1) rest

theorem surplus_writeDown (m : Memory) (a : UInt8) (bytes : List UInt8) :
    (m.writeDown a bytes).surplus = m.surplus := by
  induction bytes generalizing m a with
  | nil => rfl
  | cons v rest ih => exact ih _ _

/-- A cell holds the byte that was stored at its distance below `a`, or what it held before. -/
theorem read_writeDown (m : Memory) (a b : UInt8) (bytes : List UInt8) (h : bytes.length ≤ 256) :
    (m.writeDown a bytes).read b = (bytes[(a - 1 - b).toNat]?).getD (m.read b) := by
  induction bytes generalizing m a with
  | nil => rfl
  | cons v rest ih =>
    have hrest : rest.length ≤ 255 := by
      rw [List.length_cons] at h
      omega
    rw [writeDown, ih _ _ (by omega), read_write]
    by_cases hb : a - 1 = b
    · subst hb
      have hlast : (a - 1 - 1 - (a - 1)).toNat = 255 := by
        rw [show a - 1 - 1 - (a - 1) = 255 by grind]
        rfl
      rw [hlast, List.getElem?_eq_none hrest]
      simp
    · have hne : (a - 1).toNat ≠ b.toNat := fun e => hb (UInt8.toNat_inj.mp e)
      have hstep : (a - 1 - b).toNat = (a - 1 - 1 - b).toNat + 1 := by
        have := (a - 1).toNat_lt
        have := b.toNat_lt
        have : (1 : UInt8).toNat = 1 := rfl
        rw [UInt8.toNat_sub (a - 1), UInt8.toNat_sub (a - 1 - 1), UInt8.toNat_sub (a - 1)]
        omega
      rw [hstep, List.getElem?_cons_succ, if_neg hb]

/-- Cells that are not among those below `a` keep what they held. -/
theorem read_writeDown_of_far (m : Memory) (a b : UInt8) (bytes : List UInt8)
    (hn : bytes.length ≤ a.toNat) (h : b.toNat + bytes.length < a.toNat ∨ a.toNat ≤ b.toNat) :
    (m.writeDown a bytes).read b = m.read b := by
  have ha := a.toNat_lt
  have hb := b.toNat_lt
  rw [read_writeDown _ _ _ _ (by omega), List.getElem?_eq_none]
  · rfl
  · rw [UInt8.toNat_sub, UInt8.toNat_sub]
    have : (1 : UInt8).toNat = 1 := rfl
    omega

end Memory

/-! ## Slots -/

namespace Slot

/-- The slot that holds the pointer which the context is saved through. -/
def pointer : Slot := .register .stackPointer

/-- The slots other than the pointer's, in the order in which they are taken back. -/
def beside : List Slot := context.dropLast.reverse

/-- How far below the pointer at which the context is saved a slot's byte stands. -/
def offset : Slot → UInt8
  | .pc => 1
  | .flags => 2
  | .register r => r.toByte + 3

theorem reverse_context : context.reverse = pointer :: beside := rfl

theorem offset_bounds (s : Slot) : 1 ≤ s.offset.toNat ∧ s.offset.toNat ≤ 10 := by
  cases s with
  | pc => decide
  | flags => decide
  | register r => revert r; decide

theorem context_getElem? (s : Slot) : context[s.offset.toNat - 1]? = some s := by
  cases s with
  | pc => rfl
  | flags => rfl
  | register r => revert r; decide

/-- The context takes the ten cells below the pointer. -/
theorem exists_offset (k : UInt8) (h1 : 1 ≤ k.toNat) (h10 : k.toNat ≤ 10) :
    ∃ s : Slot, s.offset = k := by
  have hall : ∀ (j : Nat) (h : j < context.length), context[j].offset = UInt8.ofNat (j + 1) := by decide
  have hj : k.toNat - 1 < context.length := by
    rw [show context.length = 10 from rfl]
    omega
  refine ⟨context[k.toNat - 1], ?_⟩
  rw [hall _ hj, Nat.sub_add_cancel h1, UInt8.ofNat_toNat]

theorem beside_getElem? (s : Slot) (h : s ≠ pointer) : beside[9 - s.offset.toNat]? = some s := by
  cases s with
  | pc => rfl
  | flags => rfl
  | register r => revert r; decide

theorem offset_le_nine (s : Slot) (h : s ≠ pointer) : s.offset.toNat ≤ 9 := by
  cases s with
  | pc => decide
  | flags => decide
  | register r => revert r; decide

theorem mem_take_beside_iff {s : Slot} (h : s ≠ pointer) (n : Nat) :
    s ∈ beside.take n ↔ 9 < n + s.offset.toNat := by
  have hbounds := s.offset_bounds
  have hnine := s.offset_le_nine h
  have hnodup : beside.Nodup := by decide
  obtain ⟨hlt, hs⟩ := List.getElem?_eq_some_iff.mp (s.beside_getElem? h)
  rw [List.mem_take_iff_getElem]
  constructor
  · rintro ⟨k, hk, hks⟩
    have heq : k = 9 - s.offset.toNat := (List.Nodup.getElem_inj_iff hnodup).mp (hks.trans hs.symm)
    omega
  · intro hn
    exact ⟨9 - s.offset.toNat, by omega, hs⟩

theorem get_set (s t : Slot) (v : UInt8) (p : Processor) :
    t.get (s.set v p) = if s = t then v else t.get p := by
  cases s with
  | pc => cases t <;> rfl
  | flags => cases t <;> rfl
  | register r =>
    cases t with
    | register q => simp [get, set, Processor.setRegister, RegisterFile.get_set]
    | _ => rfl

/-- A slot is read from the registers alone. -/
theorem get_congr (s : Slot) {p q : Processor} (h : p.registers = q.registers) : s.get p = s.get q := by
  cases s <;> simp only [get, Processor.pc, h]

/-- No slot holds the last opcode. -/
theorem get_of_ir (s : Slot) {p q : Processor} {op : UInt8}
    (h : q.registers = { p.registers with ir := op }) : s.get q = s.get p := by
  cases s with
  | pc => simp only [get, Processor.pc, h]
  | flags => simp only [get, h]
  | register r =>
    simp only [get, h]
    rfl

theorem ir_set (s : Slot) (v : UInt8) (p : Processor) :
    (s.set v p).registers.ir = p.registers.ir := by
  cases s <;> rfl

/-- A slot touches nothing but the registers. -/
theorem set_eq (s : Slot) (v : UInt8) (p : Processor) :
    s.set v p = { p with registers := (s.set v p).registers } := by
  cases s <;> rfl

/-- The slots tell register files apart, but for the last opcode. -/
theorem registers_eq {p q : Processor} (h : ∀ s : Slot, s.get p = s.get q)
    (hi : p.registers.ir = q.registers.ir) : p.registers = q.registers := by
  apply RegisterFile.ext_get
  · intro r
    exact h (.register r)
  · exact h .pc
  · exact hi
  · exact congrArg Flags.mk (h .flags)

end Slot

namespace Processor

/-! ## Room and depth -/

/-- The processor with its stack pointer moved. -/
def setSp (p : Processor) (v : UInt8) : Processor := p.setRegister .stackPointer v

@[simp] theorem sp_setSp (p : Processor) (v : UInt8) : (p.setSp v).sp = v :=
  RegisterFile.get_set_self _ _ _

theorem setSp_sp (p : Processor) : p.setSp p.sp = p := by
  show { p with registers := p.registers.set .stackPointer (p.registers.get .stackPointer) } = p
  rw [RegisterFile.set_get]

theorem setSp_setSp (p : Processor) (v w : UInt8) : (p.setSp v).setSp w = p.setSp w := by
  simp [setSp, setRegister, RegisterFile.set_set]

theorem le_stackRoom_iff (p : Processor) {n : Nat} (hn : 0 < n) :
    n ≤ p.stackRoom ↔ p.sp.toNat ≤ 0xF3 ∧ p.programEnd.toNat + n ≤ p.sp.toNat := by
  have htop : stackTop.toNat = 0xF3 := rfl
  unfold stackRoom
  split
  · next h =>
    rw [UInt8.lt_iff_toNat_lt] at h
    omega
  · next h =>
    rw [UInt8.lt_iff_toNat_lt] at h
    omega

theorem le_stackDepth_iff (p : Processor) {n : Nat} (hn : 0 < n) :
    n ≤ p.stackDepth ↔ p.sp.toNat + n ≤ 0xF3 := by
  have htop : stackTop.toNat = 0xF3 := rfl
  unfold stackDepth
  omega

/-! ## Saving -/

/-- The bytes that pushing slots stores. A slot of the pointer holds the pointer as it stands then. -/
def slotBytes (slots : List Slot) (p : Processor) : List UInt8 :=
  match slots with
  | [] => []
  | slot :: rest => slot.get p :: slotBytes rest (p.setSp (p.sp - 1))

theorem length_slotBytes (slots : List Slot) (p : Processor) :
    (slotBytes slots p).length = slots.length := by
  induction slots generalizing p with
  | nil => rfl
  | cons slot rest ih => simp [slotBytes, ih]

theorem slotBytes_congr (slots : List Slot) {p q : Processor} (h : p.registers = q.registers) :
    slotBytes slots p = slotBytes slots q := by
  induction slots generalizing p q with
  | nil => rfl
  | cons slot rest ih =>
    have hsp : p.sp = q.sp := by simp only [sp, h]
    have hset : (p.setSp (p.sp - 1)).registers = (q.setSp (q.sp - 1)).registers := by
      simp only [setSp, setRegister, h, hsp]
    rw [slotBytes, slotBytes, slot.get_congr h, ih hset]

/-- With room for all of them, the slots' bytes are stored below the pointer and the pointer moves below
them. -/
theorem pushSlots_eq (slots : List Slot) (p : Processor) (h : slots.length ≤ p.stackRoom) :
    pushSlots slots p =
      ({ p.setSp (p.sp - UInt8.ofNat slots.length) with
          memory := p.memory.writeDown p.sp (slotBytes slots p) }, none) := by
  induction slots generalizing p with
  | nil =>
    simp only [pushSlots, List.length_nil, slotBytes, Memory.writeDown]
    rw [show p.sp - UInt8.ofNat 0 = p.sp by simp, setSp_sp]
  | cons slot rest ih =>
    let q := (p.setSp (p.sp - 1)).write (p.sp - 1) (slot.get p)
    have hq : q.sp = p.sp - 1 := p.sp_setSp _
    have hpos : p.stackRoom ≠ 0 := by
      simp only [List.length_cons] at h
      omega
    have hpush : p.push (slot.get p) = (q, none) := if_neg hpos
    have hroom : rest.length ≤ q.stackRoom := by
      rcases Nat.eq_zero_or_pos rest.length with hz | hrest
      · omega
      · obtain ⟨htop, hend⟩ := (p.le_stackRoom_iff (Nat.succ_pos _)).mp h
        have hsp : q.sp.toNat = p.sp.toNat - 1 := by
          rw [hq, UInt8.toNat_sub_of_le _ _ (UInt8.le_iff_toNat_le.mpr (by simp; omega))]
          rfl
        have hend' : q.programEnd = p.programEnd := rfl
        rw [q.le_stackRoom_iff hrest, hsp, hend']
        omega
    have hbytes : slotBytes rest q = slotBytes rest (p.setSp (p.sp - 1)) := slotBytes_congr _ rfl
    have hset (v : UInt8) : q.setSp v = { p.setSp v with memory := q.memory } := by
      simp only [q, setSp, setRegister, write, RegisterFile.set_set]
    have hlast : p.sp - 1 - UInt8.ofNat rest.length = p.sp - UInt8.ofNat (rest.length + 1) := by
      rw [UInt8.ofNat_add]
      grind
    rw [pushSlots, hpush]
    show pushSlots rest q = _
    rw [ih q hroom, hbytes, hset, hq, hlast]
    rfl

theorem slotBytes_getElem? (slots : List Slot) (p : Processor) (k : Nat) :
    (slotBytes slots p)[k]? = slots[k]?.map fun s => s.get (p.setSp (p.sp - UInt8.ofNat k)) := by
  induction slots generalizing p k with
  | nil => rfl
  | cons slot rest ih =>
    cases k with
    | zero =>
      rw [show p.sp - UInt8.ofNat 0 = p.sp by simp, setSp_sp]
      rfl
    | succ k =>
      have hsub : p.sp - 1 - UInt8.ofNat k = p.sp - UInt8.ofNat (k + 1) := by
        rw [UInt8.ofNat_add]
        grind
      rw [slotBytes, List.getElem?_cons_succ, List.getElem?_cons_succ, ih, sp_setSp, hsub]
      simp only [setSp_setSp]

theorem get_setSp (p : Processor) (v : UInt8) (s : Slot) (h : s ≠ Slot.pointer) :
    s.get (p.setSp v) = s.get p := by
  show s.get (Slot.pointer.set v p) = s.get p
  rw [Slot.get_set, if_neg h.symm]

/-- The processor with its context saved below its pointer. -/
def saved (p : Processor) : Processor :=
  { p.setSp (p.sp - 10) with memory := p.memory.writeDown p.sp (slotBytes Slot.context p) }

theorem saveContext_of_room {p : Processor} (h : 10 ≤ p.stackRoom) : p.saveContext = (p.saved, none) := by
  have hroom : ¬p.stackRoom < contextSize := by
    rw [contextSize_eq]
    omega
  rw [saveContext, if_neg hroom]
  exact pushSlots_eq Slot.context p h

theorem saveContext_of_full {p : Processor} (h : p.stackRoom < 10) :
    p.saveContext = (p, some (.stackOverflow p.sp)) :=
  if_pos h

/-- Each slot's byte stands at its offset below the pointer. The pointer's own slot holds the pointer as
the other slots left it. -/
theorem read_saved (p : Processor) (s : Slot) :
    p.saved.memory.read (p.sp - s.offset) = if s = Slot.pointer then p.sp - 9 else s.get p := by
  have hbounds := s.offset_bounds
  have hlen : (slotBytes Slot.context p).length ≤ 256 := by
    rw [length_slotBytes]
    decide
  have hindex : (p.sp - 1 - (p.sp - s.offset)).toNat = s.offset.toNat - 1 := by
    rw [show p.sp - 1 - (p.sp - s.offset) = s.offset - 1 by grind, UInt8.toNat_sub_of_le]
    · rfl
    · exact UInt8.le_iff_toNat_le.mpr hbounds.1
  show (p.memory.writeDown p.sp (slotBytes Slot.context p)).read _ = _
  rw [Memory.read_writeDown _ _ _ _ hlen, hindex, slotBytes_getElem?, s.context_getElem?]
  split
  · next h =>
    subst h
    exact sp_setSp _ _
  · next h => exact get_setSp _ _ _ h

/-- Cells outside the saved context keep what they held. -/
theorem read_saved_of_far (p : Processor) (a : UInt8) (hp : 10 ≤ p.sp.toNat)
    (h : a.toNat + 10 < p.sp.toNat ∨ p.sp.toNat ≤ a.toNat) :
    p.saved.memory.read a = p.memory.read a := by
  have hlen : (slotBytes Slot.context p).length = 10 := length_slotBytes _ _
  apply Memory.read_writeDown_of_far
  · rw [hlen]
    exact hp
  · rw [hlen]
    exact h

/-! ## Restoring -/

/-- What taking bytes back leaves alone: all but the registers, and the last opcode among these. -/
structure SameBesideRegisters (p q : Processor) : Prop where
  eq : q = { p with registers := q.registers }
  ir : q.registers.ir = p.registers.ir

theorem SameBesideRegisters.trans {p q r : Processor} (hpq : SameBesideRegisters p q)
    (hqr : SameBesideRegisters q r) : SameBesideRegisters p r := by
  refine ⟨?_, hqr.ir.trans hpq.ir⟩
  rw [hqr.eq, hpq.eq]

theorem SameBesideRegisters.memory {p q : Processor} (h : SameBesideRegisters p q) :
    q.memory = p.memory := by
  rw [h.eq]

theorem sameBesideRegisters_set (s : Slot) (v : UInt8) (p : Processor) :
    SameBesideRegisters p (s.set v p) :=
  ⟨s.set_eq v p, s.ir_set v p⟩

/-- However far taking back comes, it touches nothing but registers. -/
theorem sameBesideRegisters_popSlots (slots : List Slot) (p : Processor) :
    SameBesideRegisters p (popSlots slots p).1 := by
  induction slots generalizing p with
  | nil => exact ⟨rfl, rfl⟩
  | cons slot rest ih =>
    simp only [popSlots, pop]
    split
    · next q f h =>
      split at h
      · cases h
        exact ⟨rfl, rfl⟩
      · cases h
    · next q v h =>
      split at h
      · cases h
      · cases h
        exact ((sameBesideRegisters_set .pointer _ p).trans (sameBesideRegisters_set slot _ _)).trans
          (ih _)

theorem sameBesideRegisters_restoreContext (p : Processor) :
    SameBesideRegisters p p.restoreContext.1 := by
  unfold restoreContext
  split
  · exact ⟨rfl, rfl⟩
  · exact sameBesideRegisters_popSlots _ p

theorem pop_of_depth {p : Processor} (h : 1 ≤ p.stackDepth) :
    p.pop = (p.setSp (p.sp + 1), .ok (p.memory.read p.sp)) := by
  have hne : p.stackDepth ≠ 0 := by omega
  exact if_neg hne

/-- The processor after a byte of the stack was taken back into a slot. -/
def takenBack (p : Processor) (slot : Slot) : Processor :=
  slot.set (p.memory.read p.sp) (p.setSp (p.sp + 1))

theorem popSlots_cons {p : Processor} (h : 1 ≤ p.stackDepth) (slot : Slot) (rest : List Slot) :
    popSlots (slot :: rest) p = popSlots rest (p.takenBack slot) := by
  rw [popSlots, pop_of_depth h]
  rfl

theorem memory_takenBack (p : Processor) (slot : Slot) : (p.takenBack slot).memory = p.memory := by
  rw [takenBack, slot.set_eq]
  rfl

theorem get_takenBack (p : Processor) {slot s : Slot} (hs : s ≠ Slot.pointer) :
    s.get (p.takenBack slot) = if slot = s then p.memory.read p.sp else s.get p := by
  rw [takenBack, Slot.get_set, get_setSp _ _ _ hs]

theorem sp_takenBack (p : Processor) {slot : Slot} (h : slot ≠ Slot.pointer) :
    (p.takenBack slot).sp = p.sp + 1 := by
  show Slot.pointer.get (slot.set _ (p.setSp (p.sp + 1))) = p.sp + 1
  rw [Slot.get_set, if_neg h]
  exact sp_setSp _ _

theorem stackDepth_takenBack {p : Processor} {slot : Slot} (h : slot ≠ Slot.pointer)
    (hdepth : 1 ≤ p.stackDepth) : (p.takenBack slot).stackDepth + 1 = p.stackDepth := by
  have htop : stackTop.toNat = 0xF3 := rfl
  have hone : (1 : UInt8).toNat = 1 := rfl
  unfold stackDepth at hdepth ⊢
  rw [sp_takenBack p h, UInt8.toNat_add]
  omega

/-- Slots beside the pointer's are filled from consecutive cells, as long as the stack is deep enough. -/
theorem popSlots_spec (slots : List Slot) (p : Processor) (hnodup : slots.Nodup)
    (hpointer : Slot.pointer ∉ slots) (hdepth : slots.length ≤ p.stackDepth) :
    (popSlots slots p).2 = none ∧
      (popSlots slots p).1.sp = p.sp + UInt8.ofNat slots.length ∧
      (∀ (k : Nat) (s : Slot), slots[k]? = some s →
        s.get (popSlots slots p).1 = p.memory.read (p.sp + UInt8.ofNat k)) ∧
      ∀ s ∉ slots, s ≠ Slot.pointer → s.get (popSlots slots p).1 = s.get p := by
  induction slots generalizing p with
  | nil => simp [popSlots]
  | cons slot rest ih =>
    obtain ⟨hslot, hnodup⟩ := List.nodup_cons.mp hnodup
    have hne : slot ≠ Slot.pointer := (List.ne_of_not_mem_cons hpointer).symm
    have hpointer : Slot.pointer ∉ rest := List.not_mem_of_not_mem_cons hpointer
    rw [List.length_cons] at hdepth
    have hpos : 1 ≤ p.stackDepth := by omega
    have hrestdepth : rest.length ≤ (p.takenBack slot).stackDepth := by
      have := stackDepth_takenBack hne hpos
      omega
    have hadd (k : Nat) : p.sp + 1 + UInt8.ofNat k = p.sp + UInt8.ofNat (k + 1) := by
      rw [UInt8.ofNat_add]
      grind
    obtain ⟨hok, hsp, hfill, hrest⟩ := ih (p.takenBack slot) hnodup hpointer hrestdepth
    rw [popSlots_cons hpos]
    refine ⟨hok, ?_, ?_, ?_⟩
    · rw [hsp, sp_takenBack p hne, hadd]
      rfl
    · intro k s hk
      cases k with
      | zero =>
        obtain rfl : slot = s := by simpa using hk
        rw [hrest slot hslot hne, get_takenBack p hne, if_pos rfl]
        simp
      | succ k =>
        rw [hfill k s (by simpa using hk), memory_takenBack, sp_takenBack p hne, hadd]
    · intro s hs hsp
      simp only [List.mem_cons, not_or] at hs
      rw [hrest s hs.2 hsp, get_takenBack p hsp, if_neg (Ne.symm hs.1)]

/-- The first `n` slots beside the pointer's come from the `n` cells from the pointer on, and the others stay. -/
theorem popSlots_take_beside (p : Processor) (v : UInt8) (n : Nat) (hn : n ≤ 9)
    (hdepth : n ≤ (p.setSp v).stackDepth) :
    (popSlots (Slot.beside.take n) (p.setSp v)).2 = none ∧
      (popSlots (Slot.beside.take n) (p.setSp v)).1.sp = v + UInt8.ofNat n ∧
      ∀ s ≠ Slot.pointer, s.get (popSlots (Slot.beside.take n) (p.setSp v)).1 =
        if 9 < n + s.offset.toNat then p.memory.read (v + 9 - s.offset) else s.get p := by
  have hlength : (Slot.beside.take n).length = n := by
    rw [List.length_take, show Slot.beside.length = 9 from rfl, Nat.min_eq_left hn]
  obtain ⟨hok, hsp, hfill, hrest⟩ := popSlots_spec (Slot.beside.take n) (p.setSp v)
    ((List.take_sublist _ _).nodup (by decide)) (fun h => absurd (List.mem_of_mem_take h) (by decide))
    (Nat.le_trans (Nat.le_of_eq hlength) hdepth)
  refine ⟨hok, ?_, fun s hs => ?_⟩
  · rw [hsp, hlength, sp_setSp]
  · have hnine := s.offset_le_nine hs
    split
    · next htaken =>
      have hindex : (Slot.beside.take n)[9 - s.offset.toNat]? = some s := by
        rw [List.getElem?_take_of_lt (by omega), s.beside_getElem? hs]
      rw [hfill _ s hindex, sp_setSp, UInt8.ofNat_sub hnine, UInt8.ofNat_toNat]
      show p.memory.read (v + (9 - s.offset)) = _
      rw [show v + (9 - s.offset) = v + 9 - s.offset by grind]
    · next hkept =>
      have hout : s ∉ Slot.beside.take n := by rwa [Slot.mem_take_beside_iff hs]
      rw [hrest s hout hs, get_setSp _ _ _ hs]

theorem max_stackTop_of_le {a : UInt8} (h : a ≤ stackTop) : max a stackTop = stackTop := if_pos h

theorem max_stackTop_of_ge {a : UInt8} (h : stackTop ≤ a) : max a stackTop = a := by
  show (if a ≤ stackTop then stackTop else a) = a
  split
  · next hle => exact UInt8.le_antisymm h hle
  · rfl

/-- Slots beside the pointer's that reach past the stack are taken back as far as it goes, which is a fault at
its top. -/
theorem popSlots_of_shallow (slots : List Slot) (p : Processor) (hpointer : Slot.pointer ∉ slots)
    (hdepth : p.stackDepth < slots.length) :
    popSlots slots p =
      ((popSlots (slots.take p.stackDepth) p).1, some (.stackUnderflow (max p.sp stackTop))) := by
  have htop : stackTop.toNat = 0xF3 := rfl
  induction slots generalizing p with
  | nil => simp at hdepth
  | cons slot rest ih =>
    have hne : slot ≠ Slot.pointer := (List.ne_of_not_mem_cons hpointer).symm
    rw [List.length_cons] at hdepth
    by_cases hempty : p.stackDepth = 0
    · have hle : stackTop ≤ p.sp := by
        rw [UInt8.le_iff_toNat_le]
        unfold stackDepth at hempty
        omega
      rw [popSlots, pop_of_empty hempty, hempty]
      show (p, some (Fault.stackUnderflow p.sp)) = (p, _)
      rw [max_stackTop_of_ge hle]
    · have hpos : 1 ≤ p.stackDepth := by omega
      have hnext := stackDepth_takenBack hne hpos
      have hsp : p.sp ≤ stackTop ∧ p.sp + 1 ≤ stackTop := by
        have hone : (1 : UInt8).toNat = 1 := rfl
        unfold stackDepth at hpos
        rw [UInt8.le_iff_toNat_le, UInt8.le_iff_toNat_le, UInt8.toNat_add]
        omega
      rw [popSlots_cons hpos, ih (p.takenBack slot) (List.not_mem_of_not_mem_cons hpointer) (by omega),
        sp_takenBack p hne, max_stackTop_of_le hsp.1, max_stackTop_of_le hsp.2, ← hnext,
        List.take_succ_cons, popSlots_cons hpos]

/-- The first byte taken back is the pointer through which the others are. -/
theorem restoreContext_of_deep {p : Processor} (hdepth : 10 ≤ p.stackDepth) :
    p.restoreContext = popSlots Slot.beside (p.setSp (p.memory.read p.sp)) := by
  have hroom : ¬p.stackDepth < contextSize := by
    rw [contextSize_eq]
    omega
  rw [restoreContext, if_neg hroom, Slot.reverse_context, popSlots_cons (by omega)]
  show popSlots Slot.beside ((p.setSp (p.sp + 1)).setSp _) = _
  rw [setSp_setSp]

theorem restoreContext_of_shallow {p : Processor} (h : p.stackDepth < 10) :
    p.restoreContext = (p, some (.stackUnderflow p.sp)) :=
  if_pos h

/-- A saved pointer with less than nine cells of stack above it is a fault at the top of the stack, or at the
pointer itself if that stands higher. The context is taken back as far as the stack goes. -/
theorem restoreContext_of_high {p : Processor} (hdepth : 10 ≤ p.stackDepth)
    (hsaved : 0xEA < (p.memory.read p.sp).toNat) :
    p.restoreContext =
      ((popSlots (Slot.beside.take (0xF3 - (p.memory.read p.sp).toNat)) (p.setSp (p.memory.read p.sp))).1,
        some (.stackUnderflow (max (p.memory.read p.sp) stackTop))) := by
  have hleft : (p.setSp (p.memory.read p.sp)).stackDepth = 0xF3 - (p.memory.read p.sp).toNat := by
    rw [stackDepth, sp_setSp]
    rfl
  have hshallow : (p.setSp (p.memory.read p.sp)).stackDepth < Slot.beside.length := by
    rw [hleft, show Slot.beside.length = 9 from rfl]
    omega
  rw [restoreContext_of_deep hdepth, popSlots_of_shallow _ _ (by decide) hshallow, hleft, sp_setSp]

/-- With nine cells of stack above the saved pointer the context comes back whole: each slot from its offset
below the pointer's final place. -/
theorem restoreContext_spec (p : Processor) (hdepth : 10 ≤ p.stackDepth)
    (hsaved : (p.memory.read p.sp).toNat ≤ 0xEA) :
    p.restoreContext.2 = none ∧ p.restoreContext.1.sp = p.memory.read p.sp + 9 ∧
      ∀ s ≠ Slot.pointer,
        s.get p.restoreContext.1 = p.memory.read (p.memory.read p.sp + 9 - s.offset) := by
  have hnine : 9 ≤ (p.setSp (p.memory.read p.sp)).stackDepth := by
    rw [le_stackDepth_iff _ (by decide), sp_setSp]
    omega
  obtain ⟨hok, hsp, hslots⟩ := popSlots_take_beside p _ 9 (Nat.le_refl 9) hnine
  rw [show Slot.beside.take 9 = Slot.beside from rfl] at hok hsp hslots
  rw [restoreContext_of_deep hdepth]
  refine ⟨hok, hsp, fun s hs => ?_⟩
  have hoffset := s.offset_bounds
  rw [hslots s hs, if_pos (by omega)]

/-- Restoring succeeds exactly with ten bytes on the stack and nine cells of stack above the saved pointer. -/
theorem restoreContext_eq_none_iff (p : Processor) :
    p.restoreContext.2 = none ↔ 10 ≤ p.stackDepth ∧ (p.memory.read p.sp).toNat ≤ 0xEA := by
  constructor
  · intro hok
    rcases Nat.lt_or_ge p.stackDepth 10 with hshallow | hdepth
    · rw [restoreContext_of_shallow hshallow] at hok
      cases hok
    · refine ⟨hdepth, ?_⟩
      rcases Nat.lt_or_ge 0xEA (p.memory.read p.sp).toNat with hhigh | hlow
      · rw [restoreContext_of_high hdepth hhigh] at hok
        cases hok
      · exact hlow
  · rintro ⟨hdepth, hsaved⟩
    exact (restoreContext_spec p hdepth hsaved).1

end Processor

end Microcomputer
