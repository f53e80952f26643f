import Microcomputer.Processor.Step
import Microcomputer.Proofs.Context

/-!
What one instruction can do, before any interrupt is served.

* `Completes` names the processor that an instruction leaves at the boundary, and `Effect` what it may have
  changed there: `effect_of_completes` holds of every instruction.
* `store_of_completed`, `push_of_completed` and their like say what an instruction that may be refused found
  and did if it completed.
* `eq_of_failed`: every instruction that fails leaves the processor as it was, but for the return from an
  interrupt.
* `step_cases` takes a step apart into fetching, executing and serving.
* `Run` is a run of steps that succeed, with device events between them; `afterAll` follows any events,
  steps that fail included, and `performAll` any operations, loads and resets included. `Along` says what
  may happen along such a run, and `Along.keeps` what the run then keeps.
-/

namespace Microcomputer

namespace Processor

/-- The cell that an instruction writes, if it writes one. -/
def written? (p : Processor) : Instruction Register → Option UInt8
  | .store address _ =>
    if p.registers.get address = keyAddress then none else some (p.registers.get address)
  | .push _ | .call _ => some (p.sp - 1)
  | _ => none

/-- What an instruction does to the interrupt lines. -/
def interruptsAfter (p : Processor) : Instruction Register → InterruptController
  | .interrupt line => p.interrupts.raise (p.registers.get line)
  | .interruptReturn => p.interrupts.leave
  | _ => p.interrupts

/-- What executing an instruction may change: registers, the written cell, interrupt lines, and the run
state by a halt. -/
structure Effect (p : Processor) (i : Instruction Register) (q : Processor) : Prop where
  memory : ∀ a, p.written? i ≠ some a → q.memory.read a = p.memory.read a
  surplus : q.memory.surplus = p.memory.surplus
  interrupts : q.interrupts = p.interruptsAfter i
  state : q.state = if i = .halt then .halted else p.state
  cycles : q.cycles = p.cycles
  fault : q.fault = p.fault
  programEnd : q.programEnd = p.programEnd
  lastInstruction : q.lastInstruction = p.lastInstruction

/-- An instruction that changes only registers. -/
theorem Effect.of_registers {p q : Processor} {i : Instruction Register}
    (hq : q = { p with registers := q.registers }) (hi : p.interruptsAfter i = p.interrupts)
    (hs : i ≠ .halt) : Effect p i q := by
  rw [hq]
  exact ⟨fun _ _ => rfl, rfl, hi.symm, (if_neg hs).symm, rfl, rfl, rfl, rfl⟩

/-- A push that finds room moves the pointer down and writes the cell there. -/
theorem eq_of_push {p q : Processor} {v : UInt8} (h : p.push v = (q, none)) :
    1 ≤ p.stackRoom ∧ q = (p.setSp (p.sp - 1)).write (p.sp - 1) v := by
  unfold push at h
  split at h
  · cases h
  · next hroom =>
    cases h
    exact ⟨Nat.pos_of_ne_zero hroom, rfl⟩

theorem sp_of_push {p q : Processor} {v : UInt8} (h : p.push v = (q, none)) : q.sp = p.sp - 1 := by
  obtain ⟨-, rfl⟩ := eq_of_push h
  exact p.sp_setSp _

theorem Effect.of_push {p q : Processor} {i : Instruction Register} {v : UInt8}
    (hq : p.push v = (q, none)) (hw : p.written? i = some (p.sp - 1))
    (hi : p.interruptsAfter i = p.interrupts) (hs : i ≠ .halt) : Effect p i q := by
  obtain ⟨-, rfl⟩ := eq_of_push hq
  refine ⟨?_, rfl, hi.symm, (if_neg hs).symm, rfl, rfl, rfl, rfl⟩
  intro a ha
  have hne : p.sp - 1 ≠ a := fun e => ha (e ▸ hw)
  exact (Memory.read_write _ _ _ _).trans (if_neg hne)

/-- A pop that finds a byte reads it from the pointer's cell and moves the pointer up. -/
theorem eq_of_pop {p q : Processor} {v : UInt8} (h : p.pop = (q, .ok v)) :
    1 ≤ p.stackDepth ∧ q = p.setSp (p.sp + 1) ∧ v = p.memory.read p.sp := by
  unfold pop at h
  split at h
  · cases h
  · next hdepth =>
    cases h
    exact ⟨Nat.pos_of_ne_zero hdepth, rfl, rfl⟩

theorem eq_of_push_refused {p q : Processor} {v : UInt8} {f : Fault} (h : p.push v = (q, some f)) :
    q = p := by
  rw [push_of_full ((p.push_refused_iff v f).mp (congrArg Prod.snd h)).1] at h
  exact (congrArg Prod.fst h).symm

theorem eq_of_pop_refused {p q : Processor} {f : Fault} (h : p.pop = (q, .error f)) : q = p := by
  rw [pop_of_empty ((p.pop_refused_iff f).mp (congrArg Prod.snd h)).1] at h
  exact (congrArg Prod.fst h).symm

/-! ## Instructions that may be refused

If one of them completed, then what it asks for was there. -/

section

variable {p q : Processor} {next : UInt8} {printed : Option Printed}

theorem store_of_completed {address source : Register}
    (h : p.execute (.store address source) = .completed q next printed) :
    (q = if p.registers.get address = keyAddress then p
      else p.write (p.registers.get address) (p.registers.get source)) ∧
      next = p.registers.pc + UInt8.ofNat (Instruction.store address source).length ∧ printed = none := by
  simp only [execute] at h
  split at h
  · next hkey =>
    cases h
    exact ⟨(if_pos hkey).symm, rfl, rfl⟩
  · next hkey =>
    cases h
    exact ⟨(if_neg hkey).symm, rfl, rfl⟩

/-- An operation that completed yielded a value or flags. -/
theorem alu_of_completed {op : AluOp} {target source : Register}
    (h : p.execute (.alu op target source) = .completed q next printed) :
    ((∃ v, op.compute (p.registers.get target) (p.registers.get source) = .ok (.value v) ∧
        q = p.setRegister target v) ∨
      ∃ f, op.compute (p.registers.get target) (p.registers.get source) = .ok (.flags f) ∧
        q = p.setFlags f) ∧
      next = p.registers.pc + UInt8.ofNat (Instruction.alu op target source).length ∧ printed = none := by
  simp only [execute] at h
  split at h
  · next v hv =>
    cases h
    exact ⟨.inl ⟨v, hv, rfl⟩, rfl, rfl⟩
  · next f hf =>
    cases h
    exact ⟨.inr ⟨f, hf, rfl⟩, rfl, rfl⟩
  · cases h

theorem push_of_completed {source : Register}
    (h : p.execute (.push source) = .completed q next printed) :
    p.push (p.registers.get source) = (q, none) ∧
      next = p.registers.pc + UInt8.ofNat (Instruction.push source).length ∧ printed = none := by
  simp only [execute] at h
  split at h
  · next hpush =>
    cases h
    exact ⟨hpush, rfl, rfl⟩
  · cases h

theorem call_of_completed {address : Register}
    (h : p.execute (.call address) = .completed q next printed) :
    p.push (p.registers.pc + UInt8.ofNat (Instruction.call address).length) = (q, none) ∧
      next = p.registers.get address ∧ printed = none := by
  simp only [execute] at h
  split at h
  · next hpush =>
    cases h
    exact ⟨hpush, rfl, rfl⟩
  · cases h

theorem pop_of_completed {target : Register}
    (h : p.execute (.pop target) = .completed q next printed) :
    ∃ v r, p.pop = (r, .ok v) ∧ q = r.setRegister target v ∧
      next = p.registers.pc + UInt8.ofNat (Instruction.pop target).length ∧ printed = none := by
  simp only [execute] at h
  split at h
  · next r v hpop =>
    cases h
    exact ⟨v, r, hpop, rfl, rfl, rfl⟩
  · cases h

theorem ret_of_completed (h : p.execute .ret = .completed q next printed) :
    p.pop = (q, .ok next) ∧ printed = none := by
  simp only [execute] at h
  split at h
  · next hpop =>
    cases h
    exact ⟨hpop, rfl⟩
  · cases h

theorem interruptReturn_of_completed (h : p.execute .interruptReturn = .completed q next printed) :
    ∃ r, p.restoreContext = (r, none) ∧ q = { r with interrupts := r.interrupts.leave } ∧ next = r.pc ∧
      printed = none := by
  simp only [execute] at h
  split at h
  · next r hr =>
    cases h
    exact ⟨r, hr, rfl, rfl, rfl⟩
  · cases h

theorem interruptReturn_of_failed {f : Fault} (h : p.execute .interruptReturn = .failed q f) :
    p.restoreContext = (q, some f) := by
  simp only [execute] at h
  split at h
  · cases h
  · next hr =>
    cases h
    exact hr

end

/-! ## Effects -/

theorem effect_of_execute {p q : Processor} {i : Instruction Register} {next : UInt8}
    {printed : Option Printed} (h : p.execute i = .completed q next printed) : Effect p i q := by
  cases i with
  | nop | jump | printNumber | printChar | printText | loadImmediate | load | addImmediate =>
    cases h
    exact .of_registers rfl rfl (by simp)
  | halt =>
    cases h
    exact ⟨fun _ _ => rfl, rfl, rfl, rfl, rfl, rfl, rfl, rfl⟩
  | store address source =>
    obtain ⟨rfl, -⟩ := store_of_completed h
    split
    · exact .of_registers rfl rfl (by simp)
    · next hkey =>
      refine ⟨?_, rfl, rfl, rfl, rfl, rfl, rfl, rfl⟩
      intro a ha
      have hne : p.registers.get address ≠ a := by
        rintro rfl
        exact ha (if_neg hkey)
      exact (Memory.read_write _ _ _ _).trans (if_neg hne)
  | alu op target source =>
    obtain ⟨⟨v, -, rfl⟩ | ⟨f, -, rfl⟩, -⟩ := alu_of_completed h
    all_goals exact .of_registers rfl rfl (by simp)
  | push source => exact .of_push (push_of_completed h).1 rfl rfl (by simp)
  | pop target =>
    obtain ⟨v, r, hpop, rfl, -⟩ := pop_of_completed h
    obtain ⟨-, rfl, -⟩ := eq_of_pop hpop
    exact .of_registers rfl rfl (by simp)
  | call address => exact .of_push (call_of_completed h).1 rfl rfl (by simp)
  | ret =>
    obtain ⟨-, rfl, -⟩ := eq_of_pop (ret_of_completed h).1
    exact .of_registers rfl rfl (by simp)
  | interrupt line =>
    cases h
    exact ⟨fun _ _ => rfl, rfl, rfl, rfl, rfl, rfl, rfl, rfl⟩
  | interruptReturn =>
    obtain ⟨r, hr, rfl, -⟩ := interruptReturn_of_completed h
    have hsame := sameBesideRegisters_restoreContext p
    rw [hr] at hsame
    rw [show r = { p with registers := r.registers } from hsame.eq]
    exact ⟨fun _ _ => rfl, rfl, rfl, rfl, rfl, rfl, rfl, rfl⟩

/-- Every instruction but the return from an interrupt checks what can fail before it changes anything. -/
theorem eq_of_failed {p q : Processor} {i : Instruction Register} {f : Fault}
    (h : p.execute i = .failed q f) (hi : i ≠ .interruptReturn) : q = p := by
  cases i with
  | interruptReturn => exact absurd rfl hi
  | alu | store =>
    simp only [execute] at h
    split at h
    all_goals cases h
    all_goals rfl
  | push | call =>
    simp only [execute] at h
    split at h
    · cases h
    · next hpush =>
      cases h
      exact eq_of_push_refused hpush
  | pop | ret =>
    simp only [execute] at h
    split at h
    · cases h
    · next hpop =>
      cases h
      exact eq_of_pop_refused hpop
  | _ => cases h

/-- An instruction that fails changes nothing but registers, whichever it is. -/
theorem sameBesideRegisters_of_failed {p q : Processor} {i : Instruction Register} {f : Fault}
    (h : p.execute i = .failed q f) : SameBesideRegisters p q := by
  by_cases hi : i = .interruptReturn
  · subst hi
    have hsame := sameBesideRegisters_restoreContext p
    rw [interruptReturn_of_failed h] at hsame
    exact hsame
  · rw [eq_of_failed h hi]
    exact ⟨rfl, rfl⟩

theorem interrupts_of_failed {p q : Processor} {i : Instruction Register} {f : Fault}
    (h : p.execute i = .failed q f) : q.interrupts = p.interrupts := by
  rw [(sameBesideRegisters_of_failed h).eq]

theorem memory_of_failed {p q : Processor} {i : Instruction Register} {f : Fault}
    (h : p.execute i = .failed q f) : q.memory = p.memory :=
  (sameBesideRegisters_of_failed h).memory

/-! ## Steps -/

/-- The processor executes `i`, prints `printed`, and stands as `done` at the boundary after it, before any
interrupt is served. -/
def Completes (p : Processor) (i : Instruction Register) (printed : Option Printed)
    (done : Processor) : Prop :=
  p.state = .running ∧ p.memory.decodeAt p.pc = .ok i ∧
    ∃ q next, p.execute i = .completed q next printed ∧ done = q.retire i next

theorem effect_of_completes {p done : Processor} {i : Instruction Register} {printed : Option Printed}
    (h : p.Completes i printed done) : ∃ q next, Effect p i q ∧ done = q.retire i next := by
  obtain ⟨-, -, q, next, hexec, hdone⟩ := h
  exact ⟨q, next, effect_of_execute hexec, hdone⟩

/-- What an instruction completes to is settled by the processor. -/
theorem Completes.unique {p done done' : Processor} {i i' : Instruction Register}
    {printed printed' : Option Printed} (h : p.Completes i printed done)
    (h' : p.Completes i' printed' done') : i' = i ∧ printed' = printed ∧ done' = done := by
  obtain ⟨-, hdecode, q, next, hexec, rfl⟩ := h
  obtain ⟨-, hdecode', q', next', hexec', rfl⟩ := h'
  rw [hdecode] at hdecode'
  cases hdecode'
  rw [hexec] at hexec'
  cases hexec'
  exact ⟨rfl, rfl, rfl⟩

/-- A step that completes its instruction goes on with the boundary after it. -/
theorem step_of_completes {p done : Processor} {i : Instruction Register} {printed : Option Printed}
    (h : p.Completes i printed done) :
    p.step = match done.boundary with
      | (served, none) => ⟨served, printed, .ok i⟩
      | (reached, some f) => ⟨reached.stop f, printed, .error f⟩ := by
  obtain ⟨hrun, hdecode, q, next, hexec, rfl⟩ := h
  cases hboundary : (q.retire i next).boundary with
  | mk reached fault => cases fault <;> simp only [step, hrun, if_true, hdecode, hexec, hboundary]

theorem step_of_decodeError {p : Processor} {e : DecodeError} (hrun : p.state = .running)
    (hdecode : p.memory.decodeAt p.pc = .error e) :
    p.step = ⟨p.stop (.ofDecodeError p.pc e), none, .error (.ofDecodeError p.pc e)⟩ := by
  simp only [step, hrun, if_true, hdecode]

theorem step_of_failed {p q : Processor} {i : Instruction Register} {f : Fault}
    (hrun : p.state = .running) (hdecode : p.memory.decodeAt p.pc = .ok i)
    (hexec : p.execute i = .failed q f) : p.step = ⟨q.stop f, none, .error f⟩ := by
  simp only [step, hrun, if_true, hdecode, hexec]

/-- A running processor fails to decode, fails to execute, or completes its instruction. -/
theorem step_cases {p : Processor} (hrun : p.state = .running) :
    (∃ e, p.memory.decodeAt p.pc = .error e) ∨
      (∃ i q f, p.memory.decodeAt p.pc = .ok i ∧ p.execute i = .failed q f) ∨
      ∃ i printed done, p.Completes i printed done := by
  cases hdecode : p.memory.decodeAt p.pc with
  | error e => exact .inl ⟨e, rfl⟩
  | ok i =>
    cases hexec : p.execute i with
    | failed q f => exact .inr (.inl ⟨i, q, f, rfl, hexec⟩)
    | completed q next printed =>
      exact .inr (.inr ⟨i, printed, q.retire i next, hrun, hdecode, q, next, hexec, rfl⟩)

/-- A step that succeeds completed its instruction and met no fault at the boundary. -/
theorem completes_of_step {p : Processor} {i : Instruction Register} (h : p.step.result = .ok i) :
    ∃ done, p.Completes i p.step.printed done ∧ done.boundary = (p.step.processor, none) := by
  by_cases hrun : p.state = .running
  · rcases step_cases hrun with ⟨e, he⟩ | ⟨j, q, f, hj, hf⟩ | ⟨j, printed, done, hdone⟩
    · rw [step_of_decodeError hrun he] at h
      cases h
    · rw [step_of_failed hrun hj hf] at h
      cases h
    · have hstep := step_of_completes hdone
      cases hb : done.boundary with
      | mk served fault =>
        rw [hb] at hstep
        rw [hstep] at h ⊢
        cases fault with
        | some f => cases h
        | none =>
          cases h
          exact ⟨done, hdone, hb⟩
  · rw [step_of_not_running hrun] at h
    cases h

/-! ## Runs -/

/-- A run of steps that succeed, each of an instruction that is allowed where it stands. Between the steps
devices may raise lines and deliver keys. -/
inductive Run (allowed : Processor → Instruction Register → Prop) (p : Processor) : Processor → Prop
  | start : Run allowed p p
  | step {q : Processor} {i : Instruction Register} (run : Run allowed p q) (ok : q.step.result = .ok i)
      (hi : allowed q i) : Run allowed p q.step.processor
  | raise {q : Processor} (line : UInt8) (run : Run allowed p q) : Run allowed p (q.raise line)
  | press {q : Processor} (key line : UInt8) (run : Run allowed p q) : Run allowed p (q.press key line)

/-- What every allowed step and every device keeps, a run keeps. -/
theorem Run.keeps {allowed : Processor → Instruction Register → Prop} {kept : Processor → Prop}
    (hstep : ∀ q i, kept q → q.step.result = .ok i → allowed q i → kept q.step.processor)
    (hraise : ∀ q line, kept q → kept (q.raise line))
    (hpress : ∀ q key line, kept q → kept (q.press key line))
    {p q : Processor} (h : Run allowed p q) (hp : kept p) : kept q := by
  induction h with
  | start => exact hp
  | step _ ok hi ih => exact hstep _ _ ih ok hi
  | raise line _ ih => exact hraise _ line ih
  | press key line _ ih => exact hpress _ key line ih

/-- What can happen to a processor: a step, which may fail, or something a device does. -/
inductive Event
  | step
  | raise (line : UInt8)
  | press (key line : UInt8)
  deriving DecidableEq, Repr

def after (p : Processor) : Event → Processor
  | .step => p.step.processor
  | .raise line => p.raise line
  | .press key line => p.press key line

def afterAll (p : Processor) (events : List Event) : Processor := events.foldl after p

/-- Along a run of events or operations, each of them is one that `holds` allows at the processor that it
finds. -/
def Along {α : Type} (next : Processor → α → Processor) (holds : Processor → α → Prop) (p : Processor) :
    List α → Prop
  | [] => True
  | a :: rest => holds p a ∧ Along next holds (next p a) rest

section

variable {α : Type} {next : Processor → α → Processor} {holds : Processor → α → Prop}

theorem along_append {p : Processor} {run more : List α} :
    p.Along next holds (run ++ more) ↔
      p.Along next holds run ∧ (run.foldl next p).Along next holds more := by
  induction run generalizing p with
  | nil => simp [Along]
  | cons a rest ih => simp [Along, ih, and_assoc]

instance decidableAlong [∀ p a, Decidable (holds p a)] (p : Processor) (run : List α) :
    Decidable (p.Along next holds run) :=
  match run with
  | [] => isTrue trivial
  | a :: rest =>
    have := decidableAlong (next p a) rest
    inferInstanceAs (Decidable (holds p a ∧ (next p a).Along next holds rest))

/-- What everything that is allowed keeps, a run keeps. -/
theorem Along.keeps {P : Processor → Prop} (hnext : ∀ q a, P q → holds q a → P (next q a))
    {p : Processor} {run : List α} (h : p.Along next holds run) (hp : P p) :
    P (run.foldl next p) := by
  induction run generalizing p with
  | nil => exact hp
  | cons a rest ih =>
    obtain ⟨ha, hrest⟩ := h
    exact ih hrest (hnext p a hp ha)

end

/-- What every step keeps, a run of at most so many steps keeps. -/
theorem run_keeps {kept : Processor → Prop} (hstep : ∀ q, kept q → kept q.step.processor) (n : Nat)
    {p : Processor} (out : Printout) (hp : kept p) : kept (p.run n out).processor := by
  induction n generalizing p out with
  | zero => exact hp
  | succ n ih =>
    by_cases h : p.state = .running
    · simp only [run, h, if_true]
      cases p.step.result with
      | ok i => exact ih _ (hstep p hp)
      | error f => exact hstep p hp
    · rw [run_of_not_running h]
      exact hp

/-- What may be asked of a processor from outside. -/
inductive Operation
  | event (e : Event)
  | load (image : List UInt8)
  | reset
  /-- At most `max` steps, which go on with what was printed before. -/
  | run (max : UInt64) (out : Printout)
  | push (v : UInt8)
  | pop

/-- The processor after an operation. One that has a fault to report leaves it as far as it came; a run whose
limit does not fit leaves it as it was. -/
def perform (p : Processor) : Operation → Processor
  | .event e => p.after e
  | .load image => (p.load image).1
  | .reset => p.reset
  | .run max out =>
    match p.runAtMost? max out with
    | some r => r.processor
    | none => p
  | .push v => (p.push v).1
  | .pop => p.pop.1

def performAll (p : Processor) (operations : List Operation) : Processor := operations.foldl perform p

theorem performAll_append (p : Processor) (operations : List Operation) (o : Operation) :
    p.performAll (operations ++ [o]) = (p.performAll operations).perform o := by
  rw [performAll, List.foldl_append]
  rfl

end Processor

end Microcomputer
