import Microcomputer.Proofs.Dispatch

/-!
Where a step writes.

Memory changes in two ways only. A store writes the cell that it addresses, unless that is the key's. A push
writes the cell below the pointer, whether it is an instruction's or one of the ten that save the context.

* `push_confined`: a push that finds room stays between the end of the image and the stack's first slot, and
  its pointer does not wrap.
* `Pushes` lists the pushes of a step, and `changed_cases` says that every cell that a step changes was
  written by one of them or by a store.
* `step_confined` puts this together for a whole step.
-/

namespace Microcomputer

namespace Processor

/-- A cell of the image, or one from the stack's first slot on: that slot, the key's cell, the vectors. -/
def Reserved (p : Processor) (a : UInt8) : Prop :=
  a.toNat < p.programEnd.toNat ∨ stackTop.toNat ≤ a.toNat

/-- A push moves the pointer down by one without wrapping, to a free cell of the stack, and writes there. -/
theorem push_confined {s q : Processor} {v : UInt8} (h : s.push v = (q, none)) :
    q.sp.toNat + 1 = s.sp.toNat ∧ s.programEnd.toNat ≤ q.sp.toNat ∧ q.sp.toNat < stackTop.toNat ∧
      q.memory = s.memory.write q.sp v := by
  have hsp := sp_of_push h
  obtain ⟨hroom, rfl⟩ := eq_of_push h
  obtain ⟨htop, hend⟩ := (s.le_stackRoom_iff (by decide)).mp hroom
  have hone : (s.sp - 1).toNat = s.sp.toNat - 1 :=
    UInt8.toNat_sub_of_le _ _ (UInt8.le_iff_toNat_le.mpr (show 1 ≤ s.sp.toNat by omega))
  have hslot : stackTop.toNat = 0xF3 := rfl
  rw [hsp, hone]
  refine ⟨by omega, by omega, by omega, rfl⟩

/-- A push leaves the reserved cells alone. -/
theorem read_push_of_reserved {s q : Processor} {v a : UInt8} (h : s.push v = (q, none))
    (ha : s.Reserved a) : q.memory.read a = s.memory.read a := by
  obtain ⟨-, hlow, hhigh, hwrite⟩ := push_confined h
  have hne : q.sp ≠ a := by
    rintro rfl
    rcases ha with hend | htop
    · omega
    · omega
  rw [hwrite, Memory.read_write, if_neg hne]

/-! ## The pushes of a step -/

/-- The step of `p` comes to push `v` at `s`: as its instruction, or as the next slot of the context that it
saves for the line that it serves. -/
inductive Pushes (p : Processor) : Processor → UInt8 → Prop
  | push {source : Register} (run : p.state = .running)
      (decode : p.memory.decodeAt p.pc = .ok (.push source)) : Pushes p p (p.registers.get source)
  | call {address : Register} (run : p.state = .running)
      (decode : p.memory.decodeAt p.pc = .ok (.call address)) : Pushes p p (p.pc + 2)
  | slot {i : Instruction Register} {printed : Option Printed} {done : Processor} {line : UInt8}
      {k : Nat} {slot : Slot} (completes : p.Completes i printed done) (serves : done.Serves line)
      (room : 10 ≤ done.stackRoom) (next : Slot.context[k]? = some slot) :
      Pushes p (pushSlots (Slot.context.take k) done).1
        (slot.get (pushSlots (Slot.context.take k) done).1)

/-- No push moves the end of the image. -/
theorem programEnd_pushSlots (slots : List Slot) (p : Processor) :
    (pushSlots slots p).1.programEnd = p.programEnd := by
  induction slots generalizing p with
  | nil => rfl
  | cons slot rest ih =>
    rw [pushSlots]
    split
    · next q f hpush => rw [eq_of_push_refused hpush]
    · next q hpush =>
      obtain ⟨-, rfl⟩ := eq_of_push hpush
      exact ih _

theorem programEnd_of_completes {p done : Processor} {i : Instruction Register}
    {printed : Option Printed} (h : p.Completes i printed done) : done.programEnd = p.programEnd := by
  obtain ⟨q, next, heffect, rfl⟩ := effect_of_completes h
  exact heffect.programEnd

theorem Pushes.programEnd {p s : Processor} {v : UInt8} (h : p.Pushes s v) :
    s.programEnd = p.programEnd := by
  cases h with
  | push | call => rfl
  | slot completes =>
    rw [programEnd_pushSlots]
    exact programEnd_of_completes completes

/-- The ten cells below the pointer at which a line is served are written by one push each. -/
theorem pushes_of_served {p done : Processor} {i : Instruction Register} {printed : Option Printed}
    {line a : UInt8} (completes : p.Completes i printed done) (serves : done.Serves line)
    (room : 10 ≤ done.stackRoom) (hlow : done.sp.toNat ≤ a.toNat + 10) (hhigh : a.toNat < done.sp.toNat) :
    ∃ s v q, p.Pushes s v ∧ s.push v = (q, none) ∧ q.sp = a := by
  obtain ⟨k, hk⟩ : ∃ k, a.toNat + k + 1 = done.sp.toNat := ⟨done.sp.toNat - a.toNat - 1, by omega⟩
  have hlength : Slot.context.length = 10 := rfl
  have hslot : k < Slot.context.length := by omega
  have htake : (Slot.context.take k).length = k := by
    rw [List.length_take]
    omega
  let s := (pushSlots (Slot.context.take k) done).1
  have hs : s.sp.toNat = done.sp.toNat - k := by
    show (pushSlots (Slot.context.take k) done).1.sp.toNat = _
    rw [pushSlots_eq _ _ (by omega), htake]
    show (done.setSp (done.sp - UInt8.ofNat k)).sp.toNat = _
    have hofNat : (UInt8.ofNat k).toNat = k := by
      rw [UInt8.toNat_ofNat']
      omega
    rw [sp_setSp, UInt8.toNat_sub_of_le _ _ (UInt8.le_iff_toNat_le.mpr (by omega)), hofNat]
  have hroom : s.stackRoom ≠ 0 := by
    obtain ⟨htop, hend⟩ := (done.le_stackRoom_iff (by decide)).mp room
    have hprogram : s.programEnd = done.programEnd := programEnd_pushSlots _ _
    have hpos : 1 ≤ s.stackRoom := by
      rw [s.le_stackRoom_iff (by decide), hprogram]
      omega
    omega
  let v := Slot.context[k].get s
  have hpush : s.push v = ((s.setSp (s.sp - 1)).write (s.sp - 1) v, none) := if_neg hroom
  refine ⟨s, v, _, .slot completes serves room (List.getElem?_eq_getElem hslot), hpush, ?_⟩
  obtain ⟨hdown, -⟩ := push_confined hpush
  rw [← UInt8.toNat_inj]
  omega

/-! ## The cells that a step changes -/

/-- The cell that an instruction writes is a store's target or a push's. -/
theorem written_cases {p done : Processor} {i : Instruction Register} {printed : Option Printed}
    {a : UInt8} (h : p.Completes i printed done) (ha : p.written? i = some a) :
    (∃ address source done, p.Completes (.store address source) none done ∧
      p.registers.get address = a ∧ a ≠ keyAddress) ∨
    ∃ s v q, p.Pushes s v ∧ s.push v = (q, none) ∧ q.sp = a := by
  obtain ⟨hrun, hdecode, q, next, hexec, -⟩ := id h
  cases i with
  | store address source =>
    left
    simp only [written?] at ha
    split at ha
    · cases ha
    · next hkey =>
      cases ha
      simp only [execute, if_neg hkey] at hexec
      cases hexec
      exact ⟨address, source, _, h, rfl, hkey⟩
  | push source =>
    right
    cases ha
    obtain ⟨hpush, -⟩ := push_of_completed hexec
    exact ⟨p, _, _, .push hrun hdecode, hpush, sp_of_push hpush⟩
  | call address =>
    right
    cases ha
    obtain ⟨hpush, -⟩ := call_of_completed hexec
    have hlength : (Instruction.call address).length = 2 := by
      simp only [Instruction.length, Instruction.opcode]
      decide
    rw [hlength] at hpush
    exact ⟨p, _, _, .call hrun hdecode, hpush, sp_of_push hpush⟩
  | _ => cases ha

/-- A cell that a completed instruction changes is the one that it writes. -/
theorem written_of_changed {p done : Processor} {i : Instruction Register} {printed : Option Printed}
    {a : UInt8} (h : p.Completes i printed done) (ha : done.memory.read a ≠ p.memory.read a) :
    p.written? i = some a := by
  obtain ⟨q, next, heffect, rfl⟩ := effect_of_completes h
  by_contra hne
  exact ha (heffect.memory a hne)

/-- A cell that the entry into a handler changes is one of the ten below the pointer. -/
theorem near_of_changed {p : Processor} {line a : UInt8} (room : 10 ≤ p.stackRoom)
    (ha : (p.entered line).memory.read a ≠ p.memory.read a) :
    p.sp.toNat ≤ a.toNat + 10 ∧ a.toNat < p.sp.toNat := by
  obtain ⟨htop, hend⟩ := (p.le_stackRoom_iff (by decide)).mp room
  by_contra hfar
  exact ha (p.read_saved_of_far a (by omega) (by omega))

/-- Every cell that a step changes was written by a store or by one of the step's pushes. -/
theorem changed_cases {p : Processor} {a : UInt8}
    (ha : p.step.processor.memory.read a ≠ p.memory.read a) :
    (∃ address source done, p.Completes (.store address source) none done ∧
      p.registers.get address = a ∧ a ≠ keyAddress) ∨
    ∃ s v q, p.Pushes s v ∧ s.push v = (q, none) ∧ q.sp = a := by
  have hstep := p.outcome_step
  generalize p.step = outcome at hstep ha
  cases hstep with
  | stopped => exact absurd rfl ha
  | undecoded => exact absurd rfl ha
  | @failed i q f run decode execute =>
    have hsame : q.memory = p.memory := memory_of_failed execute
    exact absurd (congrArg (Memory.read · a) hsame) ha
  | idle completes => exact written_cases completes (written_of_changed completes ha)
  | unserved completes => exact written_cases completes (written_of_changed completes ha)
  | @served i printed done line completes serves room =>
    by_cases hdone : done.memory.read a = p.memory.read a
    · rw [← hdone] at ha
      obtain ⟨hlow, hhigh⟩ := near_of_changed room ha
      exact .inr (pushes_of_served completes serves room hlow hhigh)
    · exact written_cases completes (written_of_changed completes hdone)

/-- Serving an interrupt leaves the reserved cells alone. -/
theorem read_step_of_reserved {p done : Processor} {i : Instruction Register}
    {printed : Option Printed} {a : UInt8} (h : p.Completes i printed done) (ha : done.Reserved a) :
    p.step.processor.memory.read a = done.memory.read a := by
  rcases done.idle_or_serves with hidle | ⟨line, hserves⟩
  · rw [step_of_idle h hidle]
  · rcases Nat.lt_or_ge done.stackRoom 10 with hroom | hroom
    · rw [step_of_full h hserves hroom]
      rfl
    · rw [step_of_room h hserves hroom]
      by_contra hne
      obtain ⟨hlow, hhigh⟩ := near_of_changed hroom hne
      obtain ⟨htop, hend⟩ := (done.le_stackRoom_iff (by decide)).mp hroom
      have hslot : stackTop.toNat = 0xF3 := rfl
      unfold Reserved at ha
      omega

/-- Only a store writes a reserved cell. -/
theorem read_of_completes_of_reserved {p done : Processor} {i : Instruction Register}
    {printed : Option Printed} {a : UInt8} (h : p.Completes i printed done) (ha : p.Reserved a)
    (hi : ∀ address source, i ≠ .store address source) : done.memory.read a = p.memory.read a := by
  by_contra hne
  obtain ⟨-, hdecode, -⟩ := id h
  rcases written_cases h (written_of_changed h hne) with ⟨address, source, r, hstore, -⟩ | hpush
  · obtain ⟨-, hdecode', -⟩ := hstore
    rw [hdecode] at hdecode'
    cases hdecode'
    exact hi _ _ rfl
  · obtain ⟨s, v, q, hpushes, hok, rfl⟩ := hpush
    obtain ⟨-, hlow, hhigh, -⟩ := push_confined hok
    rw [hpushes.programEnd] at hlow
    unfold Reserved at ha
    omega

/-- Whatever the registers hold, and whether it succeeds or fails, a step changes only the target of a store,
which is never the key's cell, and free cells of the stack below the pointer that they were pushed at. No
push wraps, and neither a push nor the entry into a handler changes a cell of the image, the stack's first
slot, the key's cell or a vector. -/
theorem step_confined (p : Processor) :
    (∀ a, p.step.processor.memory.read a ≠ p.memory.read a →
      (∃ address source done, p.Completes (.store address source) none done ∧
        p.registers.get address = a ∧ a ≠ keyAddress) ∨
      ∃ s v q, p.Pushes s v ∧ s.push v = (q, none) ∧ q.sp = a ∧
        p.programEnd.toNat ≤ a.toNat ∧ a.toNat ≤ 0xF2 ∧ a.toNat < s.sp.toNat) ∧
    (∀ s v q, p.Pushes s v → s.push v = (q, none) →
      q.sp.toNat + 1 = s.sp.toNat ∧ ∀ a, p.Reserved a → q.memory.read a = s.memory.read a) ∧
    ∀ i printed done a, p.Completes i printed done → p.Reserved a →
      p.step.processor.memory.read a = done.memory.read a ∧
        ((∀ address source, i ≠ .store address source) → done.memory.read a = p.memory.read a) := by
  refine ⟨?_, ?_, ?_⟩
  · intro a ha
    rcases changed_cases ha with hstore | ⟨s, v, q, hpushes, hok, rfl⟩
    · exact .inl hstore
    · obtain ⟨hdown, hlow, hhigh, -⟩ := push_confined hok
      have hslot : stackTop.toNat = 0xF3 := rfl
      rw [hpushes.programEnd] at hlow
      exact .inr ⟨s, v, q, hpushes, hok, rfl, hlow, by omega, by omega⟩
  · intro s v q hpushes hok
    obtain ⟨hdown, -⟩ := push_confined hok
    refine ⟨hdown, fun a ha => ?_⟩
    apply read_push_of_reserved hok
    unfold Reserved
    rw [hpushes.programEnd]
    exact ha
  · intro i printed done a hdone ha
    refine ⟨?_, fun hi => read_of_completes_of_reserved hdone ha hi⟩
    apply read_step_of_reserved hdone
    unfold Reserved
    rw [programEnd_of_completes hdone]
    exact ha

/-- The image is a push of the pointer, and only one cell is free. -/
def brimming : Processor := (powerOn.load [0x45, 7]).1.setSp 3

/-- The free cell just above the image is written, by a push at the pointer. -/
theorem brimming_confined :
    brimming.memory.read 2 = 0 ∧ brimming.step.processor.memory.read 2 = 3 ∧
      ∃ s v q, brimming.Pushes s v ∧ s.push v = (q, none) ∧ q.sp = 2 ∧
        brimming.programEnd.toNat ≤ 2 := by
  have hbefore : brimming.memory.read 2 = 0 := rfl
  have hafter : brimming.step.processor.memory.read 2 = 3 := rfl
  have hchanged : brimming.step.processor.memory.read 2 ≠ brimming.memory.read 2 := by
    rw [hbefore, hafter]
    decide
  refine ⟨hbefore, hafter, ?_⟩
  rcases (step_confined brimming).1 2 hchanged with ⟨address, source, done, hstore, -⟩ | hpush
  · obtain ⟨-, hdecode, -⟩ := hstore
    cases hdecode
  · obtain ⟨s, v, q, hpushes, hok, hcell, hlow, -⟩ := hpush
    exact ⟨s, v, q, hpushes, hok, hcell, hlow⟩

end Processor

end Microcomputer
