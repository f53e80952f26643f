import Microcomputer.Proofs.Dispatch

/-!
An interrupt leaves no trace in the registers.

A handler that spares its frame is a run in which no instruction but the last one returns, and in which
neither a store nor a push reaches the ten cells where the context was saved. `Kept` is what such a run
keeps of its start. `handler_restores`: the return that finds the pointer below the frame brings the whole
context back, and an interrupt that is served at once saves the same bytes again.
-/

namespace Microcomputer

namespace Processor

/-- The instruction does not return from the handler and writes none of the ten cells below `top`. -/
def Spares (top : UInt8) (p : Processor) : Instruction Register → Prop
  | .interruptReturn => False
  | .store address _ =>
    ¬(top.toNat ≤ (p.registers.get address).toNat + 10 ∧ (p.registers.get address).toNat < top.toNat)
  | .push _ | .call _ => p.sp.toNat + 10 ≤ top.toNat
  | _ => True

/-- What a handler that spares its frame keeps: the handler goes on, the saved context stands, and so does
the end of the image. -/
structure Kept (s q : Processor) : Prop where
  servicing : q.interrupts.servicing = true
  programEnd : q.programEnd = s.programEnd
  frame : ∀ a : UInt8, s.sp.toNat ≤ a.toNat + 10 → a.toNat < s.sp.toNat →
    q.memory.read a = s.saved.memory.read a

theorem kept_entered (s : Processor) (line : UInt8) : Kept s (s.entered line) :=
  ⟨rfl, rfl, fun _ _ _ => rfl⟩

theorem Kept.raise {s q : Processor} (h : Kept s q) (line : UInt8) : Kept s (q.raise line) :=
  ⟨h.servicing, h.programEnd, h.frame⟩

/-- The key's cell stands above every stack. -/
theorem Kept.press {s q : Processor} (h : Kept s q) (htop : s.sp.toNat ≤ 0xF3) (key line : UInt8) :
    Kept s (q.press key line) := by
  refine ⟨h.servicing, h.programEnd, ?_⟩
  intro a hlow hhigh
  have hkey : keyAddress ≠ a := by
    rintro rfl
    have : keyAddress.toNat = 0xF4 := rfl
    omega
  rw [read_press, if_neg hkey]
  exact h.frame a hlow hhigh

/-- An instruction that spares the frame does not write into it. -/
theorem Spares.written?_ne {top : UInt8} {p : Processor} {i : Instruction Register}
    (h : Spares top p i) {a : UInt8} (hlow : top.toNat ≤ a.toNat + 10) (hhigh : a.toNat < top.toNat) :
    p.written? i ≠ some a := by
  have hpush (hsp : p.sp.toNat + 10 ≤ top.toNat) : some (p.sp - 1) ≠ some a := by
    intro he
    obtain rfl := Option.some.inj he
    have : (1 : UInt8).toNat = 1 := rfl
    have := top.toNat_lt
    rw [UInt8.toNat_sub] at hlow hhigh
    omega
  cases i with
  | store address source =>
    simp only [written?]
    split
    · simp
    · rintro ⟨⟩
      exact h ⟨hlow, hhigh⟩
  | push source => exact hpush h
  | call address => exact hpush h
  | _ => simp [written?]

theorem Kept.step {s q : Processor} {i : Instruction Register} (h : Kept s q)
    (hok : q.step.result = .ok i) (hi : Spares s.sp q i) : Kept s q.step.processor := by
  obtain ⟨done, hdone, hboundary⟩ := completes_of_step hok
  obtain ⟨r, next, heffect, rfl⟩ := effect_of_completes hdone
  have hserving : r.interrupts.servicing = true := by
    rw [heffect.interrupts]
    cases i with
    | interruptReturn => exact absurd hi id
    | _ => exact h.servicing
  have hidle : (r.retire i next).Idle := .inr (.inl hserving)
  rw [step_of_idle hdone hidle]
  refine ⟨hserving, heffect.programEnd.trans h.programEnd, ?_⟩
  intro a hlow hhigh
  exact (heffect.memory a (hi.written?_ne hlow hhigh)).trans (h.frame a hlow hhigh)

theorem kept_of_run {s p q : Processor} (h : Run (Spares s.sp) p q) (htop : s.sp.toNat ≤ 0xF3)
    (hp : Kept s p) : Kept s q :=
  h.keeps (fun _ _ hk hok hi => hk.step hok hi) (fun _ line hk => hk.raise line)
    (fun _ key line hk => hk.press htop key line) hp

/-- The frame holds each slot's byte at its offset. -/
theorem Kept.read_offset {s q : Processor} (h : Kept s q) (hlow : 10 ≤ s.sp.toNat) (slot : Slot) :
    q.memory.read (s.sp - slot.offset) = if slot = Slot.pointer then s.sp - 9 else slot.get s := by
  have hbounds := slot.offset_bounds
  have hsub : (s.sp - slot.offset).toNat = s.sp.toNat - slot.offset.toNat :=
    UInt8.toNat_sub_of_le _ _ (UInt8.le_iff_toNat_le.mpr (by omega))
  rw [h.frame _ (by omega) (by omega), read_saved]

/-- A return that finds the pointer below a frame that was spared takes the whole context back. -/
theorem Kept.restoreContext {s q : Processor} (h : Kept s q) (hroom : 10 ≤ s.stackRoom)
    (hsp : q.sp = s.sp - 10) :
    q.restoreContext.2 = none ∧
      q.restoreContext.1.registers = { s.registers with ir := q.registers.ir } := by
  obtain ⟨htop, hend⟩ := (s.le_stackRoom_iff (by decide)).mp hroom
  have hten : (s.sp - 10).toNat = s.sp.toNat - 10 :=
    UInt8.toNat_sub_of_le _ _ (UInt8.le_iff_toNat_le.mpr (show 10 ≤ s.sp.toNat by omega))
  have hnine : (s.sp - 9).toNat = s.sp.toNat - 9 :=
    UInt8.toNat_sub_of_le _ _ (UInt8.le_iff_toNat_le.mpr (show 9 ≤ s.sp.toNat by omega))
  have hpointer : q.memory.read q.sp = s.sp - 9 := by
    have hread := h.read_offset (by omega) Slot.pointer
    rw [if_pos rfl] at hread
    rw [hsp]
    exact hread
  have hdepth : 10 ≤ q.stackDepth := by
    rw [q.le_stackDepth_iff (by decide), hsp]
    omega
  obtain ⟨hok, hback, hslots⟩ := q.restoreContext_spec hdepth (by rw [hpointer]; omega)
  have hsum : s.sp - 9 + 9 = s.sp := by grind
  rw [hpointer, hsum] at hback hslots
  refine ⟨hok, ?_⟩
  have hir : q.restoreContext.1.registers.ir = q.registers.ir :=
    (sameBesideRegisters_restoreContext q).ir
  refine Slot.registers_eq (q := { s with registers.ir := q.registers.ir }) ?_ hir
  intro slot
  by_cases hslot : slot = Slot.pointer
  · subst hslot
    exact hback
  · rw [hslots slot hslot, h.read_offset (by omega), if_neg hslot]
    cases slot <;> rfl

/-- The processor after a return from an interrupt that took the context back. -/
def returned (p : Processor) : Processor :=
  let q := p.restoreContext.1
  { q with interrupts := q.interrupts.leave }.retire .interruptReturn q.pc

theorem completes_interruptReturn {p : Processor} (hrun : p.state = .running)
    (hdecode : p.memory.decodeAt p.pc = .ok .interruptReturn) (hok : p.restoreContext.2 = none) :
    p.Completes .interruptReturn none p.returned := by
  refine ⟨hrun, hdecode, _, _, ?_, rfl⟩
  cases hback : p.restoreContext with
  | mk q fault =>
    rw [hback] at hok
    obtain rfl : fault = none := hok
    simp only [execute, hback]

/-- The registers after the return are those before the interrupt, but for the last opcode. -/
theorem Kept.registers_returned {s q : Processor} (h : Kept s q) (hroom : 10 ≤ s.stackRoom)
    (hsp : q.sp = s.sp - 10) :
    q.returned.registers = { s.registers with ir := q.returned.registers.ir } := by
  obtain ⟨-, hregisters⟩ := h.restoreContext hroom hsp
  have hfields : q.returned.registers = { q.restoreContext.1.registers with
    ir := q.returned.registers.ir } := rfl
  rw [hfields, hregisters]

/-- An interrupt served from the same registers saves the same bytes. -/
theorem read_entered_congr {s r : Processor} {line op : UInt8}
    (h : r.registers = { s.registers with ir := op }) (k : UInt8) (h1 : 1 ≤ k) (h10 : k ≤ 10) :
    (r.entered line).memory.read (s.sp - k) = s.saved.memory.read (s.sp - k) := by
  obtain ⟨slot, rfl⟩ := Slot.exists_offset k h1 h10
  have hsp : r.sp = s.sp := Slot.pointer.get_of_ir h
  show r.saved.memory.read _ = _
  rw [← hsp, read_saved, hsp, read_saved, slot.get_of_ir h]

/-- Whatever a handler does that spares its frame, the return that finds the pointer below the frame brings
back all registers, the program counter and the flags as they were when the interrupt was served. If
another line is to be served at once, its entry saves the same ten bytes again. -/
theorem handler_restores {s q : Processor} {line : UInt8}
    (hnext : s.interrupts.nextLine? s.registers.mask = some line) (hroom : 10 ≤ s.stackRoom)
    (hhandler : Run (Spares s.sp) s.dispatch.1 q) (hrun : q.state = .running)
    (hdecode : q.memory.decodeAt q.pc = .ok .interruptReturn) (hsp : q.sp = s.sp - 10) :
    s.dispatch.2 = none ∧
      ∃ r, q.Completes .interruptReturn none r ∧
        r.registers = { s.registers with ir := r.registers.ir } ∧ r.interrupts.servicing = false ∧
        (r.interrupts.status &&& r.registers.mask = 0 →
          q.step = ⟨r, none, .ok .interruptReturn⟩) ∧
        (r.interrupts.status &&& r.registers.mask ≠ 0 →
          ∃ next t, LowestLine (r.interrupts.status &&& r.registers.mask) next ∧
            q.step = ⟨t, none, .ok .interruptReturn⟩ ∧ r.Entered next t ∧
            ∀ k : UInt8, 1 ≤ k → k ≤ 10 →
              t.memory.read (s.sp - k) = s.dispatch.1.memory.read (s.sp - k)) := by
  obtain ⟨htop, hend⟩ := (s.le_stackRoom_iff (by decide)).mp hroom
  rw [dispatch_of_room hnext hroom] at hhandler ⊢
  have hkept := kept_of_run hhandler htop (kept_entered s line)
  obtain ⟨hok, -⟩ := hkept.restoreContext hroom hsp
  have hregisters := hkept.registers_returned hroom hsp
  have hdone := completes_interruptReturn hrun hdecode hok
  obtain ⟨p, next, heffect, hretired⟩ := effect_of_completes hdone
  have hclear : q.returned.interrupts.servicing = false := rfl
  have hstate : q.returned.state = .running := by
    rw [hretired]
    exact heffect.state.trans hrun
  have hback : 10 ≤ q.returned.stackRoom := by
    have hpointer : q.returned.sp = s.sp := Slot.pointer.get_of_ir hregisters
    have hprogram : q.returned.programEnd = s.programEnd := by
      rw [hretired]
      exact heffect.programEnd.trans hkept.programEnd
    rw [le_stackRoom_iff _ (by decide), hpointer, hprogram]
    exact ⟨htop, hend⟩
  refine ⟨rfl, q.returned, hdone, hregisters, hclear, fun hidle => ?_, fun hactive => ?_⟩
  · exact step_of_idle hdone (.inr (.inr hidle))
  · obtain ⟨other, hlow⟩ := exists_lowestLine hactive
    refine ⟨other, _, hlow, step_of_room hdone ⟨hstate, hclear, hlow⟩ hback,
      entered_spec hlow.lt hback, ?_⟩
    intro k h1 h10
    exact read_entered_congr hregisters k h1 h10

/-- Lines 1 and 2 are to be served. The handler of line 1 masks all lines, counts in register 6, pushes and
pops. -/
def waiting : Processor where
  registers := ⟨#v[1, 2, 3, 4, 5, 6, 7, 0xF0], 9, 0, ⟨6⟩⟩
  memory := (Memory.zero.writeAll 0x20 [0x82, 5, 0, 0x65, 6, 0x45, 0, 0x46, 1, 0x13]).write 0xF9 0x20
  interrupts := ⟨6, false⟩
  state := .running
  cycles := 0
  fault := none
  programEnd := 0x30
  lastInstruction := none

/-- The end of that handler, in the midst of which a key arrives. -/
def handled : Processor :=
  (waiting.dispatch.1.step.processor.step.processor.press 65 3).step.processor.step.processor

/-- What the handler pushes goes below the frame. -/
theorem run_handled : Run (Spares waiting.sp) waiting.dispatch.1 handled := by
  have hstart : Run (Spares waiting.sp) waiting.dispatch.1 waiting.dispatch.1 := .start
  have hmasked := hstart.step (i := .loadImmediate 5 0) rfl trivial
  have hcounted := (hmasked.step (i := .alu .inc 6 .first) rfl trivial).press 65 3
  have hpushed := hcounted.step (i := .push 0) rfl (Nat.le_refl 240)
  exact hpushed.step (i := .pop 1) rfl trivial

theorem waiting_restored :
    ∃ r, handled.Completes .interruptReturn none r ∧
      r.registers = { waiting.registers with ir := r.registers.ir } ∧ r.interrupts.servicing = false := by
  have hnext : waiting.interrupts.nextLine? waiting.registers.mask = some 1 := rfl
  obtain ⟨-, r, hdone, hregisters, hclear, -⟩ :=
    handler_restores hnext (by decide) run_handled rfl rfl rfl
  exact ⟨r, hdone, hregisters, hclear⟩

end Processor

end Microcomputer
