import Microcomputer.Fetch
import Microcomputer.Processor.Execute

/-!
A step of the processor: fetch, decode, execute, count, and then serve the pending interrupt of the lowest
unmasked line, if there is one and no handler runs.

A step that cannot decode or execute its instruction leaves the processor as the failed instruction left
it; one whose interrupt cannot be served leaves it as far as the context was saved. Either way the processor
stops with the fault on record.

`runWhile` is the loop of a run. A limit of a run is a count of instructions, which a run of at most so many
instructions sets from the count that it begins with. Counts have 64 bits. A run whose limit does not fit is
aborted before its first step: `limit?` and `runAtMost?` give nothing. Without a limit, a program that never
stops is a run that never returns.

`run` bounds the steps instead of the count. It composes: `run_add` says that a run continued is one longer
run.
-/

namespace Microcomputer

/-- A step's processor, what it printed, and the instruction it executed or the fault it met. -/
structure StepOutcome where
  processor : Processor
  printed : Option Printed
  result : Except Fault (Instruction Register)

/-- A run's processor, all that was printed by then, and the fault that ended it, if one did. -/
structure RunOutcome where
  processor : Processor
  printed : Printout
  result : Except Fault Unit

instance : Nonempty RunOutcome := ⟨⟨.powerOn, #[], .ok ()⟩⟩

/-- How many instructions a run completed that began at `start`, or the fault that ended it. -/
def RunOutcome.executed (r : RunOutcome) (start : Processor) : Except Fault UInt64 :=
  r.result.map fun _ => r.processor.cycles - start.cycles

namespace Processor

/-- Records a completed instruction and goes on at `next`. The count of instructions begins again at zero where
it comes to `2^64`; where overflow is checked the program aborts there. -/
def retire (p : Processor) (i : Instruction Register) (next : UInt8) : Processor :=
  { p with
    registers.ir := i.opcode
    registers.pc := next
    cycles := p.cycles + 1
    lastInstruction := some i.raw }

/-- Serves the pending interrupt that is next, if there is one: saves the context and goes on at the
line's vector. A fault leaves the processor as far as the context was saved. -/
def dispatch (p : Processor) : Processor × Option Fault :=
  match p.interrupts.nextLine? p.registers.mask with
  | none => (p, none)
  | some line =>
    match p.saveContext with
    | (q, some f) => (q, some f)
    | (q, none) =>
      ({ q.setPc (q.memory.vector line) with interrupts := q.interrupts.enter line }, none)

/-- What happens at the boundary after a completed instruction: a processor that still runs may serve an
interrupt. -/
def boundary (p : Processor) : Processor × Option Fault :=
  if p.state = .running then p.dispatch else (p, none)

def step (p : Processor) : StepOutcome :=
  if p.state = .running then
    match p.memory.decodeAt p.pc with
    | .error e =>
      let f := Fault.ofDecodeError p.pc e
      ⟨p.stop f, none, .error f⟩
    | .ok i =>
      match p.execute i with
      | .failed q f => ⟨q.stop f, none, .error f⟩
      | .completed q next printed =>
        match (q.retire i next).boundary with
        | (served, none) => ⟨served, printed, .ok i⟩
        | (reached, some f) => ⟨reached.stop f, printed, .error f⟩
  else ⟨p, none, .error (.notRunning p.state)⟩

/-- At most `n` steps, ended early by a halt or a fault. -/
def run (n : Nat) (p : Processor) (out : Printout) : RunOutcome :=
  match n with
  | 0 => ⟨p, out, .ok ()⟩
  | n + 1 =>
    if p.state = .running then
      let s := p.step
      match s.result with
      | .ok _ => run n s.processor (out.add s.printed)
      | .error f => ⟨s.processor, out.add s.printed, .error f⟩
    else ⟨p, out, .ok ()⟩

/-- Whether the count of instructions has not come to the limit, if there is one. -/
def isBelow (p : Processor) (limit : Option UInt64) : Bool := limit.all (p.cycles < ·)

/-- One turn of a run: a step, after which the run goes on or has ended. It ends, too, when the processor has
stopped or the count of instructions has come to the limit. -/
def turn (limit : Option UInt64) (p : Processor) (out : Printout) : (Processor × Printout) ⊕ RunOutcome :=
  if p.state = .running ∧ p.isBelow limit then
    let s := p.step
    match s.result with
    | .ok _ => .inl (s.processor, out.add s.printed)
    | .error f => .inr ⟨s.processor, out.add s.printed, .error f⟩
  else .inr ⟨p, out, .ok ()⟩

/-- Turn after turn until the run ends. -/
def runWhile (limit : Option UInt64) (p : Processor) (out : Printout) : RunOutcome :=
  Id.run (repeatM (fun (r : Processor × Printout) => r.1.turn limit r.2) (p, out))

def runToEnd (p : Processor) (out : Printout) : RunOutcome := p.runWhile none out

/-- The count of instructions after `max` further ones, if it fits. -/
def limit? (p : Processor) (max : UInt64) : Option UInt64 :=
  if p.cycles.toNat + max.toNat < UInt64.size then some (p.cycles + max) else none

/-- At most `max` instructions, unless their limit does not fit. -/
def runAtMost? (max : UInt64) (p : Processor) (out : Printout) : Option RunOutcome :=
  (p.limit? max).map fun limit => p.runWhile (some limit) out

theorem step_of_not_running {p : Processor} (h : p.state ≠ .running) :
    p.step = ⟨p, none, .error (.notRunning p.state)⟩ := by
  simp [step, h]

theorem run_of_not_running {p : Processor} (h : p.state ≠ .running) (n : Nat) (out : Printout) :
    p.run n out = ⟨p, out, .ok ()⟩ := by
  cases n <;> simp [run, h]

theorem limit?_eq_none_iff (p : Processor) (max : UInt64) :
    p.limit? max = none ↔ UInt64.size ≤ p.cycles.toNat + max.toNat := by
  unfold limit?
  split <;> simp_all

/-- A limit lies `max` counts ahead. -/
theorem toNat_limit {p : Processor} {max limit : UInt64} (h : p.limit? max = some limit) :
    limit.toNat = p.cycles.toNat + max.toNat := by
  unfold limit? at h
  split at h
  · next hroom =>
    rw [← Option.some.inj h, UInt64.toNat_add]
    exact Nat.mod_eq_of_lt hroom
  · cases h

/-- A run is aborted exactly if its limit does not fit. -/
theorem runAtMost?_eq_none_iff (p : Processor) (max : UInt64) (out : Printout) :
    p.runAtMost? max out = none ↔ UInt64.size ≤ p.cycles.toNat + max.toNat := by
  rw [runAtMost?, Option.map_eq_none_iff, limit?_eq_none_iff]

theorem runWhile_eq (limit : Option UInt64) (p : Processor) (out : Printout) :
    p.runWhile limit out =
      match p.turn limit out with
      | .inl next => next.1.runWhile limit next.2
      | .inr ended => ended := by
  rw [runWhile, repeatM_eq_of_monadTail, repeatM.body]
  cases p.turn limit out <;> rfl

/-- A run continued is one longer run. -/
theorem run_add (m n : Nat) (p : Processor) (out : Printout) :
    p.run (m + n) out =
      match (p.run m out).result with
      | .ok _ => (p.run m out).processor.run n (p.run m out).printed
      | .error _ => p.run m out := by
  induction m generalizing p out with
  | zero => simp [run]
  | succ m ih =>
    rw [Nat.add_right_comm]
    by_cases h : p.state = .running
    · simp only [run, h, if_true]
      cases p.step.result with
      | ok _ => exact ih _ _
      | error _ => rfl
    · simp [run_of_not_running h]

end Processor

end Microcomputer
