import Mathlib.Data.List.Forall2
import Mathlib.Data.Set.Defs
import Microcomputer.Proofs.Dispatch

/-!
Masked interrupts are invisible.

Two processors that differ in pending bits only execute alike: `execute_withInterrupts` says so of one
instruction, and `boundary_withInterrupts` of the boundary after it, if the lines on which the two differ are
masked out wherever one of them could be served. `masked_invisible` follows two whole runs, of which the one
has more raises of such lines than the other: step by step they come to the same.
-/

namespace Microcomputer

variable {masked : Set Nat}

namespace InterruptController

variable {c d : InterruptController}

/-- The controllers agree, but for the pending bits of masked lines. -/
structure AgreeOutside (masked : Set Nat) (c d : InterruptController) : Prop where
  servicing : d.servicing = c.servicing
  pending : ∀ k ∉ masked, d.status.toNat.testBit k = c.status.toNat.testBit k

theorem AgreeOutside.raise (h : c.AgreeOutside masked d) (line : UInt8) :
    (c.raise line).AgreeOutside masked (d.raise line) := by
  refine ⟨h.servicing, fun k hk => ?_⟩
  rw [testBit_status_raise, testBit_status_raise, h.pending k hk]

/-- A raise of a masked line need not happen to both. -/
theorem AgreeOutside.raise_masked (h : c.AgreeOutside masked d) {line : UInt8}
    (hline : line.toNat % 8 ∈ masked) : c.AgreeOutside masked (d.raise line) := by
  refine ⟨h.servicing, fun k hk => ?_⟩
  have hne : line.toNat % 8 ≠ k := fun e => hk (e ▸ hline)
  rw [testBit_status_raise, h.pending k hk, decide_eq_false hne, Bool.or_false]

theorem AgreeOutside.enter (h : c.AgreeOutside masked d) (line : UInt8) :
    (c.enter line).AgreeOutside masked (d.enter line) := by
  refine ⟨rfl, fun k hk => ?_⟩
  rw [testBit_status_enter, testBit_status_enter, h.pending k hk]

theorem AgreeOutside.leave (h : c.AgreeOutside masked d) : c.leave.AgreeOutside masked d.leave :=
  ⟨rfl, h.pending⟩

/-- Where the masked lines are left out, the same line is next. -/
theorem AgreeOutside.nextLine? (h : c.AgreeOutside masked d) {mask : UInt8}
    (hmask : d.servicing = false → ∀ k ∈ masked, mask.toNat.testBit k = false) :
    d.nextLine? mask = c.nextLine? mask := by
  have hserving := h.servicing
  unfold InterruptController.nextLine?
  cases hd : d.servicing with
  | true =>
    rw [hd] at hserving
    rw [← hserving]
    rfl
  | false =>
    -- Where the pending bits differ, the mask has a zero.
    have hactive : d.status &&& mask = c.status &&& mask := by
      apply UInt8.toNat_inj.mp
      apply Nat.eq_of_testBit_eq
      intro k
      rw [UInt8.toNat_and, UInt8.toNat_and, Nat.testBit_and, Nat.testBit_and]
      by_cases hk : k ∈ masked
      · rw [hmask hd k hk, Bool.and_false, Bool.and_false]
      · rw [h.pending k hk]
    rw [hd] at hserving
    rw [hactive, ← hserving]

end InterruptController

namespace Processor

/-! ## Other interrupt lines -/

/-- The processor with other interrupt lines. -/
def withInterrupts (p : Processor) (c : InterruptController) : Processor := { p with interrupts := c }

@[simp] theorem registers_withInterrupts (p : Processor) (c : InterruptController) :
    (p.withInterrupts c).registers = p.registers := rfl

section

variable (p : Processor) (c : InterruptController)

theorem push_withInterrupts (v : UInt8) :
    (p.withInterrupts c).push v = ((p.push v).1.withInterrupts c, (p.push v).2) := by
  have hroom : (p.withInterrupts c).stackRoom = p.stackRoom := rfl
  unfold push
  rw [hroom]
  split <;> rfl

theorem pop_withInterrupts :
    (p.withInterrupts c).pop = (p.pop.1.withInterrupts c, p.pop.2) := by
  have hdepth : (p.withInterrupts c).stackDepth = p.stackDepth := rfl
  unfold pop
  rw [hdepth]
  split <;> rfl

theorem set_withInterrupts (s : Slot) (v : UInt8) :
    s.set v (p.withInterrupts c) = (s.set v p).withInterrupts c := by
  cases s <;> rfl

theorem popSlots_withInterrupts (slots : List Slot) :
    popSlots slots (p.withInterrupts c) =
      ((popSlots slots p).1.withInterrupts c, (popSlots slots p).2) := by
  induction slots generalizing p with
  | nil => rfl
  | cons slot rest ih =>
    rw [popSlots, popSlots, pop_withInterrupts]
    rcases p.pop with ⟨q, f | v⟩
    · rfl
    · show popSlots rest (slot.set v (q.withInterrupts c)) = _
      rw [set_withInterrupts]
      exact ih _

theorem restoreContext_withInterrupts :
    (p.withInterrupts c).restoreContext =
      (p.restoreContext.1.withInterrupts c, p.restoreContext.2) := by
  have hdepth : (p.withInterrupts c).stackDepth = p.stackDepth := rfl
  unfold restoreContext
  rw [hdepth]
  split
  · rfl
  · exact popSlots_withInterrupts _ _ _

/-- An instruction does the same under other interrupt lines, and to these what it does to any. -/
theorem execute_withInterrupts (i : Instruction Register) :
    (p.withInterrupts c).execute i =
      match p.execute i with
      | .completed q next printed =>
        .completed (q.withInterrupts ((p.withInterrupts c).interruptsAfter i)) next printed
      | .failed q f => .failed (q.withInterrupts c) f := by
  cases i with
  | nop | halt | loadImmediate | load | addImmediate | jump | interrupt => rfl
  | printNumber | printChar | printText => rfl
  | store address source =>
    by_cases hkey : p.registers.get address = keyAddress
    · simp only [execute, registers_withInterrupts, hkey, if_true]
      rfl
    · simp only [execute, registers_withInterrupts, hkey, if_false]
      rfl
  | alu op target source =>
    simp only [execute, registers_withInterrupts]
    cases op.compute (p.registers.get target) (p.registers.get source) with
    | ok result => cases result <;> rfl
    | error e =>
      cases e
      rfl
  | push source =>
    simp only [execute, registers_withInterrupts, push_withInterrupts]
    rcases p.push (p.registers.get source) with ⟨q, _ | f⟩ <;> rfl
  | call address =>
    simp only [execute, registers_withInterrupts, push_withInterrupts]
    rcases p.push (p.registers.pc + UInt8.ofNat (Instruction.call address).length) with ⟨q, _ | f⟩ <;> rfl
  | pop target =>
    simp only [execute, pop_withInterrupts]
    rcases p.pop with ⟨q, f | v⟩ <;> rfl
  | ret =>
    simp only [execute, pop_withInterrupts]
    rcases p.pop with ⟨q, f | v⟩ <;> rfl
  | interruptReturn =>
    simp only [execute, restoreContext_withInterrupts]
    rcases p.restoreContext with ⟨q, _ | f⟩ <;> rfl

/-- An instruction completes alike under other interrupt lines. -/
theorem Completes.withInterrupts {p done : Processor} {i : Instruction Register}
    {printed : Option Printed} (h : p.Completes i printed done) (c : InterruptController) :
    (p.withInterrupts c).Completes i printed
      (done.withInterrupts ((p.withInterrupts c).interruptsAfter i)) := by
  obtain ⟨hrun, hdecode, q, next, hexec, rfl⟩ := h
  refine ⟨hrun, hdecode, q.withInterrupts ((p.withInterrupts c).interruptsAfter i), next, ?_, rfl⟩
  rw [execute_withInterrupts, hexec]

theorem entered_withInterrupts (line : UInt8) :
    (p.withInterrupts c).entered line = (p.entered line).withInterrupts (c.enter line) := by
  have hbytes : slotBytes Slot.context (p.withInterrupts c) = slotBytes Slot.context p :=
    slotBytes_congr _ rfl
  unfold entered saved
  rw [hbytes]
  rfl

end

/-! ## Agreement -/

/-- What an instruction does to lines on which two processors agree, it does to both. -/
theorem agreeOutside_interruptsAfter {p : Processor} {c : InterruptController}
    (h : p.interrupts.AgreeOutside masked c) (i : Instruction Register) :
    (p.interruptsAfter i).AgreeOutside masked ((p.withInterrupts c).interruptsAfter i) := by
  cases i with
  | interrupt line => exact h.raise _
  | interruptReturn => exact h.leave
  | _ => exact h

/-- The boundary comes to the same if the lines on which the two differ are masked out. -/
theorem boundary_withInterrupts {p : Processor} {c : InterruptController}
    (h : p.interrupts.AgreeOutside masked c)
    (hmask : p.state = .running → c.servicing = false →
      ∀ k ∈ masked, p.registers.mask.toNat.testBit k = false) :
    ∃ d, p.boundary.1.interrupts.AgreeOutside masked d ∧
      (p.withInterrupts c).boundary = (p.boundary.1.withInterrupts d, p.boundary.2) := by
  have hstate : (p.withInterrupts c).state = p.state := rfl
  unfold boundary
  rw [hstate]
  split
  · next hrun =>
    have hsame : c.nextLine? p.registers.mask = p.interrupts.nextLine? p.registers.mask :=
      h.nextLine? (hmask hrun)
    cases hnext : p.interrupts.nextLine? p.registers.mask with
    | none =>
      rw [hnext] at hsame
      rw [dispatch_of_none hnext, dispatch_of_none (p := p.withInterrupts c) hsame]
      exact ⟨c, h, rfl⟩
    | some line =>
      rw [hnext] at hsame
      rcases Nat.lt_or_ge p.stackRoom 10 with hroom | hroom
      · rw [dispatch_of_full hnext hroom, dispatch_of_full (p := p.withInterrupts c) hsame hroom]
        exact ⟨c, h, rfl⟩
      · rw [dispatch_of_room hnext hroom, dispatch_of_room (p := p.withInterrupts c) hsame hroom,
          entered_withInterrupts]
        exact ⟨c.enter line, h.enter line, rfl⟩
  · exact ⟨c, h, rfl⟩

/-- The processors agree, but for the pending bits of masked lines. -/
structure AgreeOutside (masked : Set Nat) (p q : Processor) : Prop where
  eq : q = { p with interrupts := q.interrupts }
  servicing : q.interrupts.servicing = p.interrupts.servicing
  pending : ∀ k ∉ masked, q.interrupts.status.toNat.testBit k = p.interrupts.status.toNat.testBit k

end Processor

/-- The steps returned and printed the same, and their processors agree. -/
structure StepOutcome.AgreeOutside (masked : Set Nat) (s t : StepOutcome) : Prop where
  result : t.result = s.result
  printed : t.printed = s.printed
  processor : s.processor.AgreeOutside masked t.processor

namespace Processor

/-- Where the step may serve an interrupt, the mask leaves the masked lines out. -/
def Masks (masked : Set Nat) (p : Processor) : Event → Prop
  | .step => ∀ i printed done, p.Completes i printed done → done.state = .running →
      done.interrupts.servicing = false → ∀ k ∈ masked, done.registers.mask.toNat.testBit k = false
  | _ => True

theorem agreeOutside_withInterrupts {p : Processor} {c : InterruptController}
    (h : p.interrupts.AgreeOutside masked c) : p.AgreeOutside masked (p.withInterrupts c) :=
  ⟨rfl, h.servicing, h.pending⟩

/-- An instruction that completes under either lines is followed by the same at its boundary. -/
theorem step_withInterrupts_of_completes {p done : Processor} {c : InterruptController}
    {i : Instruction Register} {printed : Option Printed} (h : p.interrupts.AgreeOutside masked c)
    (hmask : (p.withInterrupts c).Masks masked .step) (hdone : p.Completes i printed done) :
    p.step.AgreeOutside masked (p.withInterrupts c).step := by
  have hother := hdone.withInterrupts c
  obtain ⟨q, next, heffect, rfl⟩ := effect_of_completes hdone
  have hlines : (q.retire i next).interrupts = p.interruptsAfter i := heffect.interrupts
  have hagree := agreeOutside_interruptsAfter h i
  rw [← hlines] at hagree
  obtain ⟨d, hd, hboundary⟩ := boundary_withInterrupts hagree (hmask i printed _ hother)
  rw [step_of_completes hdone, step_of_completes hother, hboundary]
  cases hreached : (q.retire i next).boundary with
  | mk reached fault =>
    rw [hreached] at hd
    cases fault with
    | none => exact ⟨rfl, rfl, agreeOutside_withInterrupts hd⟩
    | some f => exact ⟨rfl, rfl, agreeOutside_withInterrupts (p := reached.stop f) hd⟩

theorem step_withInterrupts {p : Processor} {c : InterruptController}
    (h : p.interrupts.AgreeOutside masked c) (hmask : (p.withInterrupts c).Masks masked .step) :
    p.step.AgreeOutside masked (p.withInterrupts c).step := by
  by_cases hrun : p.state = .running
  · rcases step_cases hrun with ⟨e, he⟩ | ⟨i, q, f, hi, hf⟩ | ⟨i, printed, done, hdone⟩
    · rw [step_of_decodeError hrun he, step_of_decodeError (p := p.withInterrupts c) hrun he]
      exact ⟨rfl, rfl, agreeOutside_withInterrupts (p := p.stop _) h⟩
    · have hfailed : (p.withInterrupts c).execute i = .failed (q.withInterrupts c) f := by
        rw [execute_withInterrupts, hf]
      rw [step_of_failed hrun hi hf, step_of_failed (p := p.withInterrupts c) hrun hi hfailed]
      rw [← interrupts_of_failed hf] at h
      exact ⟨rfl, rfl, agreeOutside_withInterrupts (p := q.stop f) h⟩
    · exact step_withInterrupts_of_completes h hmask hdone
  · rw [step_of_not_running hrun, step_of_not_running (p := p.withInterrupts c) hrun]
    exact ⟨rfl, rfl, agreeOutside_withInterrupts h⟩

section

variable {p q : Processor}

theorem AgreeOutside.interrupts (h : p.AgreeOutside masked q) :
    p.interrupts.AgreeOutside masked q.interrupts :=
  ⟨h.servicing, h.pending⟩

theorem AgreeOutside.withInterrupts_eq (h : p.AgreeOutside masked q) :
    p.withInterrupts q.interrupts = q :=
  h.eq.symm

/-- Steps of processors that agree come to the same. -/
theorem AgreeOutside.step (h : p.AgreeOutside masked q) (hmask : q.Masks masked .step) :
    p.step.AgreeOutside masked q.step := by
  rw [← h.withInterrupts_eq] at hmask ⊢
  exact step_withInterrupts h.interrupts hmask

theorem AgreeOutside.raise (h : p.AgreeOutside masked q) (line : UInt8) :
    (p.raise line).AgreeOutside masked (q.raise line) := by
  rw [← h.withInterrupts_eq]
  exact agreeOutside_withInterrupts (p := p.raise line) (h.interrupts.raise line)

theorem AgreeOutside.press (h : p.AgreeOutside masked q) (key line : UInt8) :
    (p.press key line).AgreeOutside masked (q.press key line) := by
  rw [← h.withInterrupts_eq]
  exact agreeOutside_withInterrupts (p := p.press key line) (h.interrupts.raise line)

theorem AgreeOutside.raise_masked (h : p.AgreeOutside masked q) {line : UInt8}
    (hline : line.toNat % 8 ∈ masked) : p.AgreeOutside masked (q.raise line) := by
  rw [← h.withInterrupts_eq]
  exact agreeOutside_withInterrupts (h.interrupts.raise_masked hline)

end

/-! ## Runs -/

/-- The second run has all events of the first, and more raises of masked lines anywhere between them. -/
inductive RaisesMore (masked : Set Nat) : List Event → List Event → Prop
  | nil : RaisesMore masked [] []
  | same {events more : List Event} (e : Event) (rest : RaisesMore masked events more) :
      RaisesMore masked (e :: events) (e :: more)
  | raise {events more : List Event} {line : UInt8} (hline : line.toNat % 8 ∈ masked)
      (rest : RaisesMore masked events more) : RaisesMore masked events (.raise line :: more)

/-- What the steps of a run come to, in order. -/
def outcomes (p : Processor) : List Event → List StepOutcome
  | [] => []
  | .step :: rest => p.step :: p.step.processor.outcomes rest
  | .raise line :: rest => (p.raise line).outcomes rest
  | .press key line :: rest => (p.press key line).outcomes rest

theorem AgreeOutside.outcomes {p q : Processor} {events more : List Event} (h : p.AgreeOutside masked q)
    (hmore : RaisesMore masked events more) (hmask : q.Along after (Masks masked) more) :
    List.Forall₂ (StepOutcome.AgreeOutside masked) (p.outcomes events) (q.outcomes more) := by
  -- A raise of one alone breaks the equality that the run starts from. Their agreement carries on.
  induction hmore generalizing p q with
  | nil => exact .nil
  | same e rest ih =>
    obtain ⟨hfirst, hrest⟩ := hmask
    cases e with
    | step =>
      have hstep := h.step hfirst
      exact .cons hstep (ih hstep.processor hrest)
    | raise line => exact ih (h.raise line) hrest
    | press key line => exact ih (h.press key line) hrest
  | raise hline rest ih => exact ih (h.raise_masked hline) hmask.2

/-- However often masked lines are raised besides, as long as the mask leaves them out wherever an interrupt
could be served, each step of the run returns, prints and leaves the same, but for the pending bits of these
lines. -/
theorem masked_invisible {p : Processor} {events more : List Event}
    (hmore : RaisesMore masked events more) (hmask : p.Along after (Masks masked) more) :
    List.Forall₂ (StepOutcome.AgreeOutside masked) (p.outcomes events) (p.outcomes more) := by
  have hsame : p.AgreeOutside masked p := ⟨rfl, rfl, fun _ _ => rfl⟩
  exact hsame.outcomes hmore hmask

/-- One completion tells where the mask stands. -/
theorem masks_of_completes {p done : Processor} {i : Instruction Register} {printed : Option Printed}
    (h : p.Completes i printed done)
    (hmask : ∀ k ∈ masked, done.registers.mask.toNat.testBit k = false) : p.Masks masked .step := by
  intro i' printed' done' h' _ _
  obtain ⟨-, -, rfl⟩ := h.unique h'
  exact hmask

/-- The program lets line 1 alone through. -/
def selective : Processor := (powerOn.load [0x82, 5, 2, 0x00, 0x65, 0]).1

/-- The key is served, and line 2, raised three times, stays pending. -/
theorem selective_unseen :
    let more := [Event.raise 2, .step, .raise 10, .press 65 1, .raise 2, .step]
    List.Forall₂ (StepOutcome.AgreeOutside {2}) (selective.outcomes [.step, .press 65 1, .step])
        (selective.outcomes more) ∧
      (selective.afterAll more).interrupts = ⟨4, true⟩ := by
  have hmore : RaisesMore {2} [.step, .press 65 1, .step]
      [.raise 2, .step, .raise 10, .press 65 1, .raise 2, .step] :=
    .raise rfl (.same _ (.raise rfl (.same _ (.raise rfl (.same _ .nil)))))
  refine ⟨masked_invisible hmore ⟨trivial, ?_, trivial, trivial, trivial, ?_, trivial⟩, rfl⟩
  all_goals
    refine masks_of_completes ⟨rfl, rfl, _, _, rfl, rfl⟩ ?_
    rintro _ rfl
    rfl

end Processor

end Microcomputer
