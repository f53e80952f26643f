import Microcomputer.Listing
import Microcomputer.Processor.Cells
import Microcomputer.Processor.Inspect
import Microcomputer.Proofs.Runs

/-!
What an access of a processor depends on, and what it changes.

`Access` is all that may be done to a processor from outside, `reply` what comes of it, and `touched` the cells
that it reads and writes. A processor is patched from an address on if other bytes were put into the cells from
there: `Patched`. One lemma for each action says that the patch shows in nothing that the action does, as long
as the action stays below it, and that the action leaves it there: `Patched.step`, `Patched.run`, and for every
access `Patched.access`. Only clearing the memory removes it.

With other bytes in the patch this is what an access depends on; with the very bytes that stand there, it is
what an access leaves alone.
-/

namespace Microcomputer

/-- The memories are the same, except that the second holds `bytes` in the cells from `n` on. -/
def Memory.Patched (n : Nat) (bytes : UInt8 → UInt8) (m m' : Memory) : Prop :=
  ∀ a, m'.read a = if a.toNat < n then m.read a else bytes a

namespace Processor

/-- The second processor is the first with `bytes` in the cells from `n` on. -/
inductive Patched (n : Nat) (bytes : UInt8 → UInt8) (p : Processor) : Processor → Prop
  | intro (m : Memory) (memory : p.memory.Patched n bytes m) : Patched n bytes p { p with memory := m }

/-- All the addresses have a cell among the first `n`. -/
def Within (n : Nat) (addresses : List UInt8) : Prop := ∀ a ∈ addresses, a.toNat < n

instance (n : Nat) (addresses : List UInt8) : Decidable (Within n addresses) :=
  List.decidableBAll _ addresses

section

variable {n : Nat} {bytes : UInt8 → UInt8} {p q : Processor}

theorem within_append {first second : List UInt8} :
    Within n (first ++ second) ↔ Within n first ∧ Within n second := List.forall_mem_append

theorem within_singleton {a : UInt8} : Within n [a] ↔ a.toNat < n := List.forall_mem_singleton

/-! ## Parts of a processor -/

namespace Patched

theorem read (h : p.Patched n bytes q) {a : UInt8} (ha : a.toNat < n) :
    q.memory.read a = p.memory.read a := by
  obtain ⟨m, hm⟩ := h
  rw [hm a, if_pos ha]

theorem above (h : p.Patched n bytes q) {a : UInt8} (ha : n ≤ a.toNat) : q.memory.read a = bytes a := by
  obtain ⟨m, hm⟩ := h
  rw [hm a, if_neg (Nat.not_lt.mpr ha)]

/-- A processor is patched with what it holds. -/
theorem self (n : Nat) (p : Processor) : p.Patched n p.memory.read p :=
  .intro p.memory fun _ => (ite_self _).symm

theorem registers (h : p.Patched n bytes q) : q.registers = p.registers := by
  cases h
  rfl

theorem pc (h : p.Patched n bytes q) : q.pc = p.pc := congrArg RegisterFile.pc h.registers

theorem sp (h : p.Patched n bytes q) : q.sp = p.sp := congrArg RegisterFile.sp h.registers

theorem interrupts (h : p.Patched n bytes q) : q.interrupts = p.interrupts := by
  cases h
  rfl

theorem cycles (h : p.Patched n bytes q) : q.cycles = p.cycles := by
  cases h
  rfl

theorem state (h : p.Patched n bytes q) : q.state = p.state := by
  cases h
  rfl

theorem slot (h : p.Patched n bytes q) (s : Slot) : s.get q = s.get p := by
  cases h
  cases s <;> rfl

theorem stackRoom (h : p.Patched n bytes q) : q.stackRoom = p.stackRoom := by
  cases h
  rfl

theorem stackDepth (h : p.Patched n bytes q) : q.stackDepth = p.stackDepth := by
  cases h
  rfl

/-- What neither reads nor writes the memory leaves the patch. -/
theorem map (h : p.Patched n bytes q) (f : Processor → Processor)
    (hf : ∀ p m, f { p with memory := m } = { f p with memory := m })
    (hmemory : ∀ p, (f p).memory = p.memory) : (f p).Patched n bytes (f q) := by
  obtain ⟨m, hm⟩ := h
  rw [← hmemory p] at hm
  rw [hf p m]
  exact .intro m hm

theorem write (h : p.Patched n bytes q) {a : UInt8} (ha : a.toNat < n) (v : UInt8) :
    (p.write a v).Patched n bytes (q.write a v) := by
  obtain ⟨m, hm⟩ := h
  refine .intro (m.write a v) fun b => ?_
  show (m.write a v).read b = if b.toNat < n then (p.memory.write a v).read b else bytes b
  rw [Memory.read_write, Memory.read_write, hm b]
  by_cases hab : a = b
  · subst hab
    rw [if_pos rfl, if_pos ha, if_pos rfl]
  · rw [if_neg hab, if_neg hab]

theorem setRegister (h : p.Patched n bytes q) (r : Register) (v : UInt8) :
    (p.setRegister r v).Patched n bytes (q.setRegister r v) :=
  h.map (·.setRegister r v) (fun _ _ => rfl) fun _ => rfl

theorem setSlot (h : p.Patched n bytes q) (s : Slot) (v : UInt8) :
    (s.set v p).Patched n bytes (s.set v q) := by
  cases s <;> exact h.map (Slot.set _ v) (fun _ _ => rfl) fun _ => rfl

theorem stop (h : p.Patched n bytes q) (f : Fault) : (p.stop f).Patched n bytes (q.stop f) :=
  h.map (·.stop f) (fun _ _ => rfl) fun _ => rfl

theorem raise (h : p.Patched n bytes q) (line : UInt8) : (p.raise line).Patched n bytes (q.raise line) :=
  h.map (·.raise line) (fun _ _ => rfl) fun _ => rfl

end Patched

/-! ## The stack -/

/-- The processors reached are alike but for the patch, and what else comes of it is the same. -/
inductive PatchedWith {α : Type} (n : Nat) (bytes : UInt8 → UInt8) : Processor × α → Processor × α → Prop
  | intro {p q : Processor} (reached : p.Patched n bytes q) (a : α) : PatchedWith n bytes (p, a) (q, a)

namespace Patched

theorem push (h : p.Patched n bytes q) (v : UInt8) (hcells : Within n p.pushedCells) :
    PatchedWith n bytes (p.push v) (q.push v) := by
  unfold Processor.push
  rw [h.stackRoom, h.sp]
  split
  · exact .intro h _
  · next hroom =>
    rw [pushedCells, if_neg hroom, within_singleton] at hcells
    exact .intro ((h.setRegister _ _).write hcells v) none

theorem pop (h : p.Patched n bytes q) (hcells : Within n p.poppedCells) :
    PatchedWith n bytes p.pop q.pop := by
  unfold Processor.pop
  rw [h.stackDepth, h.sp]
  split
  · exact .intro h _
  · next hdepth =>
    rw [poppedCells, if_neg hdepth, within_singleton] at hcells
    rw [h.read hcells]
    exact .intro (h.setRegister _ _) _

theorem pushSlots {slots : List Slot} (h : p.Patched n bytes q)
    (hcells : Within n (pushedSlots slots p)) :
    PatchedWith n bytes (Processor.pushSlots slots p) (Processor.pushSlots slots q) := by
  induction slots generalizing p q with
  | nil => exact .intro h none
  | cons slot rest ih =>
    obtain ⟨hpushed, hrest⟩ := within_append.mp hcells
    have hpush := h.push (slot.get p) hpushed
    unfold Processor.pushSlots
    rw [h.slot]
    generalize p.push (slot.get p) = x, q.push (slot.get p) = y at hpush hrest
    obtain ⟨hreached, refused⟩ := hpush
    cases refused with
    | none => exact ih hreached hrest
    | some f => exact .intro hreached _

theorem popSlots {slots : List Slot} (h : p.Patched n bytes q)
    (hcells : Within n (poppedSlots slots p)) :
    PatchedWith n bytes (Processor.popSlots slots p) (Processor.popSlots slots q) := by
  induction slots generalizing p q with
  | nil => exact .intro h none
  | cons slot rest ih =>
    obtain ⟨hpopped, hrest⟩ := within_append.mp hcells
    have hpop := h.pop hpopped
    unfold Processor.popSlots
    generalize p.pop = x, q.pop = y at hpop hrest
    obtain ⟨hreached, result⟩ := hpop
    cases result with
    | ok v => exact ih (hreached.setSlot slot v) hrest
    | error f => exact .intro hreached _

theorem saveContext (h : p.Patched n bytes q) (hcells : Within n p.savedCells) :
    PatchedWith n bytes p.saveContext q.saveContext := by
  unfold Processor.saveContext
  unfold savedCells at hcells
  rw [h.stackRoom, h.sp]
  by_cases hfull : p.stackRoom < contextSize
  · rw [if_pos hfull, if_pos hfull]
    exact .intro h _
  · rw [if_neg hfull] at hcells ⊢
    rw [if_neg hfull]
    exact h.pushSlots hcells

theorem restoreContext (h : p.Patched n bytes q) (hcells : Within n p.restoredCells) :
    PatchedWith n bytes p.restoreContext q.restoreContext := by
  unfold Processor.restoreContext
  unfold restoredCells at hcells
  rw [h.stackDepth, h.sp]
  by_cases hempty : p.stackDepth < contextSize
  · rw [if_pos hempty, if_pos hempty]
    exact .intro h _
  · rw [if_neg hempty] at hcells ⊢
    rw [if_neg hempty]
    exact h.popSlots hcells

end Patched

/-! ## Instructions -/

/-- Both executions come to the same, but for the patch. -/
inductive PatchedExecution (n : Nat) (bytes : UInt8 → UInt8) : Execution → Execution → Prop
  | completed {p q : Processor} (h : p.Patched n bytes q) (next : UInt8) (printed : Option Printed) :
      PatchedExecution n bytes (.completed p next printed) (.completed q next printed)
  | failed {p q : Processor} (h : p.Patched n bytes q) (f : Fault) :
      PatchedExecution n bytes (.failed p f) (.failed q f)

theorem Patched.execute (h : p.Patched n bytes q) (i : Instruction Register)
    (hcells : Within n (p.executedCells i)) :
    PatchedExecution n bytes (p.execute i) (q.execute i) := by
  have hregisters := h.registers
  cases i with
  | nop | jump | printNumber | printChar =>
    simp only [Processor.execute, hregisters]
    exact .completed h _ _
  | halt =>
    have hhalted := h.map (fun p => { p with state := .halted }) (fun _ _ => rfl) fun _ => rfl
    simp only [hregisters] at hhalted
    simp only [Processor.execute, hregisters]
    exact .completed hhalted _ _
  | loadImmediate | addImmediate =>
    simp only [Processor.execute, hregisters]
    exact .completed (h.setRegister _ _) _ _
  | load target address =>
    have hread := h.read (within_singleton.mp hcells)
    simp only [Processor.execute, hregisters, hread]
    exact .completed (h.setRegister _ _) _ _
  | store address source =>
    unfold executedCells at hcells
    simp only [Processor.execute, hregisters]
    split
    · exact .completed h _ _
    · next haddress =>
      simp only [if_neg haddress] at hcells
      exact .completed (h.write (within_singleton.mp hcells) _) _ _
  | alu op target source =>
    simp only [Processor.execute, hregisters]
    split
    · exact .completed (h.setRegister _ _) _ _
    · exact .completed (h.map (·.setFlags _) (fun _ _ => rfl) fun _ => rfl) _ _
    · exact .failed h _
  | push source =>
    have hpush := h.push (p.registers.get source) hcells
    simp only [Processor.execute, hregisters]
    generalize p.push _ = x, q.push _ = y at hpush
    obtain ⟨hreached, refused⟩ := hpush
    cases refused with
    | none => exact .completed hreached _ _
    | some f => exact .failed hreached f
  | pop target =>
    have hpop := h.pop hcells
    simp only [Processor.execute, hregisters]
    generalize p.pop = x, q.pop = y at hpop
    obtain ⟨hreached, result⟩ := hpop
    cases result with
    | ok v => exact .completed (hreached.setRegister _ _) _ _
    | error f => exact .failed hreached f
  | call address =>
    have hpush := h.push (p.registers.pc + UInt8.ofNat (Instruction.call address).length) hcells
    simp only [Processor.execute, hregisters]
    generalize p.push _ = x, q.push _ = y at hpush
    obtain ⟨hreached, refused⟩ := hpush
    cases refused with
    | none => exact .completed hreached _ _
    | some f => exact .failed hreached f
  | ret =>
    have hpop := h.pop hcells
    simp only [Processor.execute]
    generalize p.pop = x, q.pop = y at hpop
    obtain ⟨hreached, result⟩ := hpop
    cases result with
    | ok v => exact .completed hreached _ _
    | error f => exact .failed hreached f
  | interrupt line =>
    simp only [Processor.execute, hregisters]
    exact .completed (h.raise _) _ _
  | interruptReturn =>
    have hrestore := h.restoreContext hcells
    simp only [Processor.execute]
    generalize p.restoreContext = x, q.restoreContext = y at hrestore
    obtain ⟨hreached, refused⟩ := hrestore
    cases refused with
    | none =>
      simp only [hreached.pc]
      exact .completed (hreached.map (fun p => { p with interrupts := p.interrupts.leave })
        (fun _ _ => rfl) fun _ => rfl) _ _
    | some f => exact .failed hreached f
  | printText first last =>
    have hread : (addressRange (p.registers.get first) (p.registers.get last)).map q.memory.read =
        (addressRange (p.registers.get first) (p.registers.get last)).map p.memory.read :=
      List.map_congr_left fun a ha => h.read (hcells a ha)
    simp only [Processor.execute, hregisters, hread]
    exact .completed h _ _

/-! ## Steps and runs -/

namespace Patched

theorem dispatch (h : p.Patched n bytes q) (hcells : Within n p.dispatchedCells) :
    PatchedWith n bytes p.dispatch q.dispatch := by
  unfold Processor.dispatch
  unfold dispatchedCells at hcells
  rw [h.interrupts, h.registers]
  cases hline : p.interrupts.nextLine? p.registers.mask with
  | none => exact .intro h none
  | some line =>
    simp only [hline] at hcells
    obtain ⟨hsaved, hvector⟩ := within_append.mp hcells
    have hsave := h.saveContext hsaved
    simp only
    generalize p.saveContext = x, q.saveContext = y at hsave hvector
    obtain ⟨hreached, refused⟩ := hsave
    cases refused with
    | none =>
      have hread := hreached.read (within_singleton.mp hvector)
      simp only [Memory.vector, hread]
      exact .intro (hreached.map (fun p => { p.setPc _ with interrupts := p.interrupts.enter line })
        (fun _ _ => rfl) fun _ => rfl) none
    | some f => exact .intro hreached _

theorem boundary (h : p.Patched n bytes q) (hcells : Within n p.boundaryCells) :
    PatchedWith n bytes p.boundary q.boundary := by
  unfold Processor.boundary
  unfold boundaryCells at hcells
  rw [h.state]
  by_cases hrun : p.state = .running
  · rw [if_pos hrun] at hcells ⊢
    rw [if_pos hrun]
    exact h.dispatch hcells
  · rw [if_neg hrun, if_neg hrun]
    exact .intro h none

/-- The bytes of an instruction are read alike. -/
theorem fetched (h : p.Patched n bytes q) {a : UInt8} (hcells : Within n [a, a + 1, a + 2]) :
    q.memory.read a = p.memory.read a ∧ q.memory.read (a + 1) = p.memory.read (a + 1) ∧
      q.memory.read (a + 2) = p.memory.read (a + 2) := by
  simp only [Within, List.forall_mem_cons] at hcells
  obtain ⟨hopcode, hfirst, hsecond, -⟩ := hcells
  exact ⟨h.read hopcode, h.read hfirst, h.read hsecond⟩

theorem decodeAt (h : p.Patched n bytes q) {a : UInt8} (hcells : Within n [a, a + 1, a + 2]) :
    q.memory.decodeAt a = p.memory.decodeAt a := by
  obtain ⟨hopcode, hfirst, hsecond⟩ := h.fetched hcells
  rw [Memory.decodeAt, Memory.decodeAt, hopcode, hfirst, hsecond]

theorem step (h : p.Patched n bytes q) (hcells : Within n p.stepCells) :
    PatchedWith n bytes (p.step.processor, p.step.printed, p.step.result)
      (q.step.processor, q.step.printed, q.step.result) := by
  unfold Processor.step
  unfold stepCells at hcells
  rw [h.state]
  by_cases hrun : p.state = .running
  · simp only [if_pos hrun] at hcells ⊢
    obtain ⟨hfetched, hrest⟩ := within_append.mp hcells
    rw [h.pc, h.decodeAt hfetched]
    cases hdecode : p.memory.decodeAt p.pc with
    | error e => exact .intro (h.stop _) _
    | ok i =>
      simp only [hdecode] at hrest
      obtain ⟨hexecuted, hboundary⟩ := within_append.mp hrest
      have hexecute := h.execute i hexecuted
      simp only
      generalize p.execute i = x, q.execute i = y at hexecute hboundary
      cases hexecute with
      | failed hreached f => exact .intro (hreached.stop f) _
      | @completed p' q' hreached next printed =>
        have hretired := hreached.map (·.retire i next) (fun _ _ => rfl) fun _ => rfl
        have hserve := hretired.boundary hboundary
        simp only
        generalize (p'.retire i next).boundary = x, (q'.retire i next).boundary = y at hserve
        obtain ⟨hserved, refused⟩ := hserve
        cases refused with
        | none => exact .intro hserved _
        | some f => exact .intro (hserved.stop f) _
  · rw [if_neg hrun, if_neg hrun]
    exact .intro h _

theorem run (h : p.Patched n bytes q) (steps : Nat) (out : Printout) (hcells : Within n (p.runCells steps)) :
    PatchedWith n bytes
      ((p.run steps out).processor, (p.run steps out).printed, (p.run steps out).result)
      ((q.run steps out).processor, (q.run steps out).printed, (q.run steps out).result) := by
  induction steps generalizing p q out with
  | zero => exact .intro h _
  | succ steps ih =>
    by_cases hrun : p.state = .running
    · simp only [runCells, if_pos hrun] at hcells
      obtain ⟨hstepped, hrest⟩ := within_append.mp hcells
      have hstep := h.step hstepped
      simp only [Processor.run, h.state, if_pos hrun]
      generalize p.step = s, q.step = t at hstep hrest
      obtain ⟨p', printed, result⟩ := s
      obtain ⟨q', printed', result'⟩ := t
      cases hstep with | intro hreached =>
      cases result with
      | ok i => exact ih hreached _ hrest
      | error f => exact .intro hreached _
    · have hstop : q.state ≠ .running := h.state ▸ hrun
      rw [run_of_not_running hrun, run_of_not_running hstop]
      exact .intro h _

end Patched

end

/-! ## Accesses -/

/-- What may be done to a processor from outside: operations, edits of its registers and its memory, and looks
at the memory. A run without a limit, if it ends, is as many steps as it takes. -/
inductive Access
  | operation (o : Operation)
  | setRegister (r : Register) (v : UInt8)
  | setPc (v : UInt8)
  | setFlags (f : Flags)
  | write (a : UInt8) (bytes : List UInt8)
  | read (a : UInt8)
  | vector (line : UInt8)
  | dump (start : UInt8) (count : Nat)
  | traceLine
  | disassembleAt (a : UInt8)

def access (p : Processor) : Access → Processor
  | .operation o => p.perform o
  | .setRegister r v => p.setRegister r v
  | .setPc v => p.setPc v
  | .setFlags f => p.setFlags f
  | .write a bytes => p.writeAll a bytes
  | .read _ | .vector _ | .dump .. | .traceLine | .disassembleAt _ => p

def accessAll (p : Processor) (accesses : List Access) : Processor := accesses.foldl access p

/-- What an access returns, and what it prints. -/
inductive Reply
  | nothing
  | step (printed : Option Printed) (result : Except Fault (Instruction Register))
  | load (result : Except ImageTooLarge Unit)
  /-- Nothing comes of a run whose limit does not fit. -/
  | run (outcome : Option (Printout × Except Fault UInt64))
  | push (refused : Option Fault)
  | pop (result : Except Fault UInt8)
  | byte (v : UInt8)
  | cells (cells : List (UInt8 × UInt8))
  | text (line : String)
  | disassembly (entry : String × Nat)

/-- The reply to an access. What devices do, a reset and an edit return nothing. -/
def reply (p : Processor) : Access → Reply
  | .operation (.event .step) => .step p.step.printed p.step.result
  | .operation (.load image) => .load (p.load image).2
  | .operation (.run max out) => .run ((p.runAtMost? max out).map fun r => (r.printed, r.executed p))
  | .operation (.push v) => .push (p.push v).2
  | .operation .pop => .pop p.pop.2
  | .read a => .byte (p.memory.read a)
  | .vector line => .byte (p.memory.vector line)
  | .dump start count => .cells (p.memory.dump start count)
  | .traceLine => .text p.traceLine
  | .disassembleAt a => .disassembly (p.memory.disassembleAt a)
  | _ => .nothing

/-- The replies to accesses that follow one another. -/
def replies (p : Processor) : List Access → List Reply
  | [] => []
  | x :: rest => p.reply x :: (p.access x).replies rest

/-- The cells that an access reads and writes. Clearing the memory clears the cells that there are. -/
def touched (p : Processor) : Access → List UInt8
  | .operation (.event .step) => p.stepCells
  | .operation (.event (.press _ _)) => [keyAddress]
  | .operation (.load image) => if image.length > maxImageSize then [] else Memory.writtenCells 0 image
  | .operation (.run max _) =>
    match p.limit? max with
    | none => []
    | some _ => p.runCells max.toNat
  | .operation (.push _) => p.pushedCells
  | .operation .pop => p.poppedCells
  | .operation (.event (.raise _)) | .operation .reset => []
  | .setRegister .. | .setPc _ | .setFlags _ => []
  | .write a bytes => Memory.writtenCells a bytes
  | .read a => [a]
  | .vector line => [Memory.vectorCell line]
  | .dump start count => Memory.addresses start count
  | .traceLine => p.fetchedCells
  | .disassembleAt a => [a, a + 1, a + 2]

section

variable {n : Nat} {bytes : UInt8 → UInt8} {p q : Processor}

namespace PatchedWith

variable {α : Type} {x y : Processor × α}

theorem reached (h : PatchedWith n bytes x y) : x.1.Patched n bytes y.1 := by
  obtain ⟨hreached, a⟩ := h
  exact hreached

theorem same (h : PatchedWith n bytes x y) : y.2 = x.2 := by
  cases h
  rfl

end PatchedWith

namespace Patched

theorem writeAll (h : p.Patched n bytes q) {a : UInt8} {values : List UInt8}
    (hcells : Within n (Memory.writtenCells a values)) :
    (p.writeAll a values).Patched n bytes (q.writeAll a values) := by
  induction values generalizing p q a with
  | nil => exact h
  | cons v rest ih =>
    obtain ⟨ha, hrest⟩ := List.forall_mem_cons.mp hcells
    exact ih (h.write ha v) hrest

/-- A reset removes whatever differs: there are zeros in the place of it. -/
theorem reset (p q : Processor) : p.reset.Patched n (fun _ => 0) q.reset := by
  have hzero : p.reset.memory.Patched n (fun _ => 0) q.memory.clear := fun a => by
    show q.memory.clear.read a = if a.toNat < n then p.memory.clear.read a else 0
    rw [Memory.read_clear, Memory.read_clear, ite_self]
  exact .intro q.memory.clear hzero

theorem load (p q : Processor) {image : List UInt8}
    (hcells : Within n (p.touched (.operation (.load image)))) :
    PatchedWith n (fun _ => 0) (p.load image) (q.load image) := by
  unfold touched at hcells
  unfold Processor.load Memory.load
  by_cases hlarge : image.length > maxImageSize
  · simp only [if_pos hlarge]
    exact .intro (reset p q) _
  · simp only [if_neg hlarge] at hcells ⊢
    have hloaded := (reset p q).writeAll hcells
    exact .intro (hloaded.map (fun p => { p with programEnd := UInt8.ofNat image.length })
      (fun _ _ => rfl) fun _ => rfl) _

theorem runAtMost? (h : p.Patched n bytes q) {max : UInt64} {out : Printout}
    (hcells : Within n (p.touched (.operation (.run max out)))) :
    (p.perform (.run max out)).Patched n bytes (q.perform (.run max out)) ∧
      q.reply (.operation (.run max out)) = p.reply (.operation (.run max out)) := by
  have hcycles := h.cycles
  simp only [reply]
  rcases Nat.lt_or_ge (p.cycles.toNat + max.toNat) UInt64.size with hroom | hfull
  · have hroom' : q.cycles.toNat + max.toNat < UInt64.size := hcycles ▸ hroom
    simp only [touched, limit?_of_room hroom] at hcells
    have hrun := h.run max.toNat out hcells
    have hreached := hrun.reached
    obtain ⟨hprinted, hresult⟩ := Prod.mk.inj hrun.same
    have hexecuted : (q.run max.toNat out).executed q = (p.run max.toNat out).executed p := by
      rw [RunOutcome.executed, RunOutcome.executed, hresult, hcycles, hreached.cycles]
    rw [perform_run_of_room hroom, perform_run_of_room hroom', runAtMost?_of_room hroom,
      runAtMost?_of_room hroom']
    simp only [Option.map_some, hprinted, hexecuted]
    exact ⟨hreached, trivial⟩
  · have hfull' : UInt64.size ≤ q.cycles.toNat + max.toNat := hcycles ▸ hfull
    rw [perform_run_of_overflow hfull, perform_run_of_overflow hfull',
      (p.runAtMost?_eq_none_iff max out).mpr hfull, (q.runAtMost?_eq_none_iff max out).mpr hfull']
    exact ⟨h, rfl⟩

theorem vector (h : p.Patched n bytes q) {line : UInt8} (hcells : Within n [Memory.vectorCell line]) :
    q.memory.vector line = p.memory.vector line :=
  h.read (within_singleton.mp hcells)

theorem dump (h : p.Patched n bytes q) {start : UInt8} {count : Nat}
    (hcells : Within n (Memory.addresses start count)) :
    q.memory.dump start count = p.memory.dump start count :=
  List.map_congr_left fun a ha => by rw [h.read (hcells a ha)]

theorem traceLine (h : p.Patched n bytes q) (hcells : Within n p.fetchedCells) :
    q.traceLine = p.traceLine := by
  obtain ⟨hopcode, hfirst, hsecond⟩ := h.fetched hcells
  simp only [Processor.traceLine, h.pc, h.registers, hopcode, hfirst, hsecond]

theorem disassembleAt (h : p.Patched n bytes q) {a : UInt8} (hcells : Within n [a, a + 1, a + 2]) :
    q.memory.disassembleAt a = p.memory.disassembleAt a := by
  rw [Memory.disassembleAt, Memory.disassembleAt, h.decodeAt hcells, (h.fetched hcells).1]

/-- An access that stays below the patch does not show it, and leaves it in its place, unless it clears the
memory. -/
theorem access (h : p.Patched n bytes q) (x : Access) (hcells : Within n (p.touched x)) :
    (∃ rest, (rest = bytes ∨ rest = fun _ => 0) ∧ (p.access x).Patched n rest (q.access x)) ∧
      q.reply x = p.reply x := by
  have hkept {p' q' : Processor} (h : p'.Patched n bytes q') :
      ∃ rest, (rest = bytes ∨ rest = fun _ => 0) ∧ p'.Patched n rest q' := ⟨bytes, .inl rfl, h⟩
  have hcleared {p' q' : Processor} (h : p'.Patched n (fun _ => 0) q') :
      ∃ rest, (rest = bytes ∨ rest = fun _ => 0) ∧ p'.Patched n rest q' := ⟨_, .inr rfl, h⟩
  cases x with
  | operation o =>
    cases o with
    | event e =>
      cases e with
      | step =>
        have hstep := h.step hcells
        obtain ⟨hprinted, hresult⟩ := Prod.mk.inj hstep.same
        exact ⟨hkept hstep.reached, congrArg₂ Reply.step hprinted hresult⟩
      | raise line => exact ⟨hkept (h.raise line), rfl⟩
      | press key line =>
        have hlatched := h.write (within_singleton.mp hcells) key
        exact ⟨hkept (hlatched.raise line), rfl⟩
    | load image =>
      have hload := load p q hcells
      exact ⟨hcleared hload.reached, congrArg Reply.load hload.same⟩
    | reset => exact ⟨hcleared (reset p q), rfl⟩
    | run max out =>
      obtain ⟨hreached, hreply⟩ := h.runAtMost? hcells
      exact ⟨hkept hreached, hreply⟩
    | push v =>
      have hpush := h.push v hcells
      exact ⟨hkept hpush.reached, congrArg Reply.push hpush.same⟩
    | pop =>
      have hpop := h.pop hcells
      exact ⟨hkept hpop.reached, congrArg Reply.pop hpop.same⟩
  | setRegister r v => exact ⟨hkept (h.setRegister r v), rfl⟩
  | setPc v => exact ⟨hkept (h.setSlot .pc v), rfl⟩
  | setFlags f => exact ⟨hkept (h.setSlot .flags f.bits), rfl⟩
  | write a values => exact ⟨hkept (h.writeAll hcells), rfl⟩
  | read a => exact ⟨hkept h, congrArg Reply.byte (h.read (within_singleton.mp hcells))⟩
  | vector line => exact ⟨hkept h, congrArg Reply.byte (h.vector hcells)⟩
  | dump start count => exact ⟨hkept h, congrArg Reply.cells (h.dump hcells)⟩
  | traceLine => exact ⟨hkept h, congrArg Reply.text (h.traceLine hcells)⟩
  | disassembleAt a => exact ⟨hkept h, congrArg Reply.disassembly (h.disassembleAt hcells)⟩

end Patched

end

end Processor

end Microcomputer
