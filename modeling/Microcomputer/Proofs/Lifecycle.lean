import Microcomputer.Proofs.KeyCell
import Microcomputer.Proofs.Reports

/-!
The life of a processor, from power-on through loads, resets, steps, runs and what devices do.

* `Consistent` ties the run state, the fault on record, the end of the image, the cycle count, the last
  instruction and the last opcode together. `Consistent.perform`: every operation keeps it for which the
  cycle count has room.
* `fault_eq_some_iff`: the fault on record is the one that a running processor's step or run returned, if
  nothing has cleared it since.
* `Stands`: what a processor that has stopped may still change, which is its pending lines and the key's
  cell. `stands_performAll`: nothing but a load or a reset gets it further.
* `lifecycle` puts this together for any operations from power-on on.
-/

namespace Microcomputer

namespace Processor

namespace Operation

/-- How many instructions the operation may execute. -/
def steps : Operation → Nat
  | event .step => 1
  | run max _ => max.toNat
  | _ => 0

/-- Steps, runs and what devices do. -/
def continues : Operation → Bool
  | event _ | run .. => true
  | _ => false

end Operation

/-- The cycle count has room for what the operation may execute. -/
def HasRoom (p : Processor) (o : Operation) : Prop := p.cycles.toNat + o.steps < UInt64.size

instance (p : Processor) (o : Operation) : Decidable (p.HasRoom o) :=
  inferInstanceAs (Decidable (_ < _))

/-- The fault that an operation returns, if it is a step or a run that meets one. -/
def returned? (p : Processor) : Operation → Option Fault
  | .event .step =>
    match p.step.result with
    | .ok _ => none
    | .error f => some f
  | .run max out =>
    (p.runAtMost? max out).bind fun r =>
      match r.result with
      | .ok _ => none
      | .error f => some f
  | _ => none

/-- A push or a pop from outside moves the pointer and may write a cell. -/
theorem perform_stack (p : Processor) {o : Operation} (ho : o.continues = false)
    (hclears : o.clears = false) : ∃ sp m, p.perform o = { p.setSp sp with memory := m } := by
  have hsame : ∃ sp m, p = { p.setSp sp with memory := m } := ⟨p.sp, p.memory, p.setSp_sp.symm⟩
  cases o with
  | push v =>
    rw [perform]
    rcases hpush : p.push v with ⟨q, _ | f⟩
    · obtain ⟨-, rfl⟩ := eq_of_push hpush
      exact ⟨_, _, rfl⟩
    · rw [eq_of_push_refused hpush]
      exact hsame
  | pop =>
    rw [perform]
    rcases hpop : p.pop with ⟨q, f | v⟩
    · rw [eq_of_pop_refused hpop]
      exact hsame
    · obtain ⟨-, rfl, -⟩ := eq_of_pop hpop
      exact ⟨_, _, rfl⟩
  | event | run => cases ho
  | load | reset => cases hclears

/-! ## What the fields say about each other -/

/-- The processor is faulted exactly if a fault is on record, which is never that it does not run; the image
ends below the stack; and there is a last instruction exactly if instructions were counted, one whose opcode
is the last one and whose operands are registers. -/
structure Consistent (p : Processor) : Prop where
  faulted_iff : p.state = .faulted ↔ p.fault ≠ none
  fault_ne : ∀ s, p.fault ≠ some (.notRunning s)
  programEnd_le : p.programEnd.toNat ≤ 243
  last_iff : p.lastInstruction ≠ none ↔ 0 < p.cycles.toNat
  last : ∀ i, p.lastInstruction = some i →
    p.registers.ir = i.opcode ∧ ∀ r ∈ i.registers, r.toNat < 8

theorem consistent_powerOn : powerOn.Consistent := by
  refine ⟨by decide, ?_, by decide, by decide, ?_⟩
  · intro s h
    cases h
  · intro i h
    cases h

section

variable {p q done : Processor} {i : Instruction Register} {printed : Option Printed}

theorem Consistent.fault_of_running (h : p.Consistent) (hrun : p.state = .running) : p.fault = none := by
  by_contra hfault
  have hfaulted := h.faulted_iff.mpr hfault
  rw [hrun] at hfaulted
  cases hfaulted

/-- What leaves the six fields alone keeps them consistent. -/
theorem Consistent.congr (h : p.Consistent) (hstate : q.state = p.state) (hfault : q.fault = p.fault)
    (hend : q.programEnd = p.programEnd) (hcycles : q.cycles = p.cycles)
    (hlast : q.lastInstruction = p.lastInstruction) (hir : q.registers.ir = p.registers.ir) :
    q.Consistent := by
  obtain ⟨hfaulted, hne, hle, hiff, hop⟩ := h
  constructor
  · rw [hstate, hfault]
    exact hfaulted
  · rw [hfault]
    exact hne
  · rw [hend]
    exact hle
  · rw [hlast, hcycles]
    exact hiff
  · rw [hlast, hir]
    exact hop

theorem Consistent.of_sameBesideRegisters (h : p.Consistent) (hq : SameBesideRegisters p q) :
    q.Consistent := by
  apply h.congr
  case hir => exact hq.ir
  all_goals rw [hq.eq]

theorem Consistent.stop (h : p.Consistent) {f : Fault} (hf : ∀ s, f ≠ .notRunning s) :
    (p.stop f).Consistent where
  faulted_iff := ⟨fun _ => Option.some_ne_none f, fun _ => rfl⟩
  fault_ne := fun s hs => hf s (Option.some.inj hs)
  programEnd_le := h.programEnd_le
  last_iff := h.last_iff
  last := h.last

/-- An instruction is not refused for want of running. -/
theorem ne_notRunning_of_failed {f : Fault} (h : p.execute i = .failed q f) (s : RunState) :
    f ≠ .notRunning s := by
  rintro rfl
  exact (p.execute_failed_iff i _).mp ⟨q, h⟩

theorem Consistent.of_completes (h : p.Consistent) (hdone : p.Completes i printed done)
    (hroom : p.cycles.toNat + 1 < UInt64.size) : done.Consistent := by
  obtain ⟨hrun, -⟩ := id hdone
  have hnone := h.fault_of_running hrun
  obtain ⟨q, next, heffect, rfl⟩ := effect_of_completes hdone
  have hfault : (q.retire i next).fault = none := heffect.fault.trans hnone
  have hcycles : (q.retire i next).cycles.toNat = p.cycles.toNat + 1 := by
    show (q.cycles + 1).toNat = _
    rw [heffect.cycles, UInt64.toNat_add]
    exact Nat.mod_eq_of_lt hroom
  constructor
  case faulted_iff =>
    have hstate : (q.retire i next).state ≠ .faulted := by
      show q.state ≠ .faulted
      rw [heffect.state, hrun]
      split <;> decide
    exact ⟨fun hs => absurd hs hstate, fun hf => absurd hfault hf⟩
  case fault_ne =>
    intro s hs
    rw [hfault] at hs
    cases hs
  case programEnd_le =>
    show q.programEnd.toNat ≤ 243
    rw [heffect.programEnd]
    exact h.programEnd_le
  case last_iff =>
    rw [hcycles]
    exact ⟨fun _ => Nat.succ_pos _, fun _ => Option.some_ne_none i.raw⟩
  case last =>
    rintro _ ⟨⟩
    refine ⟨(Instruction.opcode_map _ i).symm, ?_⟩
    rw [Instruction.raw, Instruction.registers_map]
    intro r hr
    obtain ⟨s, -, rfl⟩ := List.mem_map.mp hr
    rw [Register.toByte_toNat]
    exact s.isLt

theorem Consistent.step (h : p.Consistent) (hroom : p.cycles.toNat + 1 < UInt64.size) :
    p.step.processor.Consistent := by
  have hstep := p.outcome_step
  generalize p.step = outcome at hstep
  cases hstep with
  | stopped => exact h
  | @undecoded e =>
    apply h.stop
    cases e <;> simp [Fault.ofDecodeError]
  | failed run decode execute =>
    have hq := h.of_sameBesideRegisters (sameBesideRegisters_of_failed execute)
    exact hq.stop (ne_notRunning_of_failed execute)
  | idle completes => exact h.of_completes completes hroom
  | served completes => exact (h.of_completes completes hroom).congr rfl rfl rfl rfl rfl rfl
  | unserved completes => exact (h.of_completes completes hroom).stop (by simp)

theorem Consistent.run (h : p.Consistent) (n : Nat) (hroom : p.cycles.toNat + n < UInt64.size)
    (out : Printout) : (p.run n out).processor.Consistent := by
  -- A step takes at most one from the room, so that what is left does for the rest of the run.
  induction n generalizing p out with
  | zero => exact h
  | succ n ih =>
    by_cases hrun : p.state = .running
    · have hstep := h.step (by omega)
      have hcycles := p.cycles_step_le
      simp only [Processor.run, hrun, if_true]
      cases p.step.result with
      | ok i => exact ih hstep (by omega) _
      | error f => exact hstep
    · rw [run_of_not_running hrun]
      exact h

/-- A load leaves a consistent processor, whether or not the image is accepted. -/
theorem consistent_load (p : Processor) (image : List UInt8) : (p.load image).1.Consistent := by
  unfold load
  split
  · next loaded hload =>
    obtain ⟨hsize, -⟩ := Memory.read_load hload 0
    have hmax : maxImageSize = 243 := rfl
    have hend : (UInt8.ofNat image.length).toNat ≤ 243 := by
      rw [UInt8.toNat_ofNat']
      omega
    exact { consistent_powerOn with programEnd_le := hend }
  · exact consistent_powerOn.congr rfl rfl rfl rfl rfl rfl

theorem Consistent.perform_stack (h : p.Consistent) {o : Operation} (ho : o.continues = false)
    (hclears : o.clears = false) : (p.perform o).Consistent := by
  obtain ⟨sp, m, heq⟩ := p.perform_stack ho hclears
  rw [heq]
  exact h.congr rfl rfl rfl rfl rfl rfl

/-- Every operation keeps the fields consistent, as long as the cycle count has room for it. -/
theorem Consistent.perform (h : p.Consistent) {o : Operation} (hroom : p.HasRoom o) :
    (p.perform o).Consistent := by
  cases o with
  | event e =>
    cases e with
    | step => exact h.step hroom
    | raise line => exact h.congr rfl rfl rfl rfl rfl rfl
    | press key line => exact h.congr rfl rfl rfl rfl rfl rfl
  | load image => exact p.consistent_load image
  | reset => exact consistent_powerOn.congr rfl rfl rfl rfl rfl rfl
  | run max out =>
    have hroom : p.cycles.toNat + max.toNat < UInt64.size := hroom
    rw [perform_run_of_room hroom]
    exact h.run _ hroom out
  | push | pop => exact h.perform_stack rfl rfl

/-! ## The fault on record -/

theorem fault_step (p : Processor) (hrun : p.state = .running) (hp : p.fault = none) :
    p.step.processor.fault = p.returned? (.event .step) := by
  have hdone {i printed done} (h : p.Completes i printed done) : done.fault = none := by
    obtain ⟨q, next, heffect, rfl⟩ := effect_of_completes h
    exact heffect.fault.trans hp
  unfold returned?
  have hstep := p.outcome_step
  generalize p.step = outcome at hstep
  cases hstep with
  | stopped hstopped => exact absurd hrun hstopped
  | undecoded | failed | unserved => rfl
  | idle completes | served completes =>
    have hnone := hdone completes
    exact hnone

theorem fault_run (n : Nat) (out : Printout) (hp : p.fault = none) :
    (p.run n out).processor.fault =
      match (p.run n out).result with
      | .ok _ => none
      | .error f => some f := by
  induction n generalizing p out with
  | zero => exact hp
  | succ n ih =>
    by_cases hrun : p.state = .running
    · have hfault := p.fault_step hrun hp
      unfold returned? at hfault
      simp only [run, hrun, if_true]
      cases hresult : p.step.result with
      | ok i =>
        rw [hresult] at hfault
        exact ih _ hfault
      | error f =>
        rw [hresult] at hfault
        exact hfault
    · rw [run_of_not_running hrun]
      exact hp

theorem fault_perform_stack {o : Operation} (ho : o.continues = false) (hclears : o.clears = false) :
    (p.perform o).fault = p.fault := by
  obtain ⟨sp, m, heq⟩ := p.perform_stack ho hclears
  rw [heq]
  rfl

/-- An operation on a running processor records the fault that it returns. -/
theorem fault_perform_of_running (hrun : p.state = .running) (hp : p.fault = none) {o : Operation}
    (ho : o.clears = false) : (p.perform o).fault = p.returned? o := by
  cases o with
  | event e =>
    cases e with
    | step => exact p.fault_step hrun hp
    | raise line => exact hp
    | press key line => exact hp
  | load image => cases ho
  | reset => cases ho
  | run max out =>
    rcases Nat.lt_or_ge (p.cycles.toNat + max.toNat) UInt64.size with hroom | hfull
    · rw [perform_run_of_room hroom, returned?, runAtMost?_of_room hroom]
      exact fault_run _ out hp
    · rw [perform_run_of_overflow hfull, returned?, (p.runAtMost?_eq_none_iff max out).mpr hfull]
      exact hp
  | push | pop => exact (fault_perform_stack rfl rfl).trans hp

theorem fault_perform_of_stopped (hstop : p.state ≠ .running) {o : Operation} (ho : o.clears = false) :
    (p.perform o).fault = p.fault := by
  cases o with
  | event e =>
    cases e with
    | step =>
      show p.step.processor.fault = p.fault
      rw [step_of_not_running hstop]
    | raise | press => rfl
  | load | reset => cases ho
  | run max out =>
    rw [perform_run_of_not_running hstop]
  | push | pop => exact fault_perform_stack rfl rfl

theorem fault_perform_of_clears {o : Operation} (ho : o.clears = true) : (p.perform o).fault = none := by
  cases o with
  | load image =>
    show (p.load image).1.fault = none
    unfold load
    split <;> rfl
  | reset => rfl
  | _ => cases ho

theorem returned?_of_clears {o : Operation} (ho : o.clears = true) : p.returned? o = none := by
  cases o with
  | load | reset => rfl
  | _ => cases ho

theorem consistent_performAll {operations : List Operation} (h : powerOn.Along perform HasRoom operations) :
    (powerOn.performAll operations).Consistent :=
  h.keeps (fun _ _ hq hroom => hq.perform hroom) consistent_powerOn

/-- Of the operations from power-on on, one returned the fault, being a step or a run of a running processor,
and no load or reset has come since. -/
def Recorded (operations : List Operation) (f : Fault) : Prop :=
  ∃ pre o post, operations = pre ++ o :: post ∧ (powerOn.performAll pre).state = .running ∧
    (powerOn.performAll pre).returned? o = some f ∧ ∀ later ∈ post, later.clears = false

theorem not_recorded_nil (f : Fault) : ¬Recorded [] f := by
  rintro ⟨pre, o, post, hsplit, -⟩
  simp at hsplit

/-- A fault is returned by the last operation, or was returned before and is not cleared by it. -/
theorem recorded_append_iff {operations : List Operation} {o : Operation} {f : Fault} :
    Recorded (operations ++ [o]) f ↔
      ((powerOn.performAll operations).state = .running ∧
        (powerOn.performAll operations).returned? o = some f) ∨
      (Recorded operations f ∧ o.clears = false) := by
  constructor
  · rintro ⟨pre, o', post, hsplit, hrun, hreturned, hpost⟩
    rcases List.eq_nil_or_concat post with rfl | ⟨rest, last, rfl⟩
    · obtain ⟨rfl, hlast⟩ := List.append_inj' hsplit rfl
      cases hlast
      exact .inl ⟨hrun, hreturned⟩
    · rw [List.concat_eq_append, ← List.cons_append, ← List.append_assoc] at hsplit
      obtain ⟨rfl, hlast⟩ := List.append_inj' hsplit rfl
      cases hlast
      exact .inr ⟨⟨pre, o', rest, rfl, hrun, hreturned, fun later h => hpost later (by simp [h])⟩,
        hpost o (by simp)⟩
  · rintro (⟨hrun, hreturned⟩ | ⟨⟨pre, o', post, rfl, hrun, hreturned, hpost⟩, ho⟩)
    · exact ⟨operations, o, [], rfl, hrun, hreturned, by simp⟩
    · refine ⟨pre, o', post ++ [o], by simp, hrun, hreturned, ?_⟩
      intro later hlater
      rcases List.mem_append.mp hlater with hlater | hlast
      · exact hpost later hlater
      · rw [List.mem_singleton.mp hlast]
        exact ho

/-- The fault on record is the one that a step or a run returned and that nothing has cleared since. -/
theorem fault_eq_some_iff {operations : List Operation} (h : powerOn.Along perform HasRoom operations)
    (f : Fault) : (powerOn.performAll operations).fault = some f ↔ Recorded operations f := by
  -- From the right, since the last operation decides: a load or a reset clears the record, a step or a run
  -- of a running processor writes it, and there is none to overwrite by `fault_of_running`.
  induction operations using List.reverseRecOn with
  | nil => simp [not_recorded_nil, performAll, powerOn]
  | append_singleton operations o ih =>
    obtain ⟨hbefore, -⟩ := along_append.mp h
    have ih := ih hbefore
    rw [performAll_append, recorded_append_iff, ← ih]
    cases ho : o.clears with
    | true => simp [fault_perform_of_clears ho, returned?_of_clears ho]
    | false =>
      by_cases hrun : (powerOn.performAll operations).state = .running
      · have hnone := (consistent_performAll hbefore).fault_of_running hrun
        simp [fault_perform_of_running hrun hnone ho, hrun, hnone]
      · simp [fault_perform_of_stopped hrun ho, hrun]

/-! ## After the end -/

/-- `q` is `p`, but for pending lines and the key's cell. -/
structure Stands (p q : Processor) : Prop where
  eq : q = { p with memory := q.memory, interrupts := q.interrupts }
  servicing : q.interrupts.servicing = p.interrupts.servicing
  memory : ∀ a, a ≠ keyAddress → q.memory.read a = p.memory.read a
  surplus : q.memory.surplus = p.memory.surplus

theorem stands_refl (p : Processor) : p.Stands p := ⟨rfl, rfl, fun _ _ => rfl, rfl⟩

theorem Stands.state (h : p.Stands q) : q.state = p.state := by rw [h.eq]

theorem Stands.raise (h : p.Stands q) (line : UInt8) : p.Stands (q.raise line) := by
  refine ⟨?_, h.servicing, h.memory, h.surplus⟩
  rw [h.eq]
  rfl

theorem Stands.press (h : p.Stands q) (key line : UInt8) : p.Stands (q.press key line) := by
  refine ⟨?_, h.servicing, ?_, h.surplus⟩
  · rw [h.eq]
    rfl
  · intro a ha
    rw [read_press, if_neg (Ne.symm ha)]
    exact h.memory a ha

/-- Neither a step nor a run gets a stopped processor any further. -/
theorem Stands.perform (h : p.Stands q) (hstop : p.state ≠ .running) {o : Operation}
    (ho : o.continues = true) : p.Stands (q.perform o) := by
  have hstop : q.state ≠ .running := h.state ▸ hstop
  cases o with
  | event e =>
    cases e with
    | step =>
      show p.Stands q.step.processor
      rw [step_of_not_running hstop]
      exact h
    | raise line => exact h.raise line
    | press key line => exact h.press key line
  | run max out =>
    rw [perform_run_of_not_running hstop]
    exact h
  | _ => cases ho

theorem stands_performAll (hstop : p.state ≠ .running) {operations : List Operation}
    (ho : ∀ o ∈ operations, o.continues = true) : p.Stands (p.performAll operations) := by
  induction operations using List.reverseRecOn with
  | nil => exact p.stands_refl
  | append_singleton operations o ih =>
    rw [performAll_append]
    exact (ih fun o' h' => ho o' (by simp [h'])).perform hstop (ho o (by simp))

end

/-- Whatever is done to a processor from power-on on, as long as its cycle count has room: its fields are
consistent, the fault on record is the one that was returned, and once it has stopped, nothing but a load or
a reset starts it again. Until then a step returns that it is not running, a run whose limit fits executes
nothing, neither of them prints, and at most pending lines and the key's cell change. -/
theorem lifecycle {operations : List Operation} (hroom : powerOn.Along perform HasRoom operations) :
    (powerOn.performAll operations).Consistent ∧
    (∀ f, (powerOn.performAll operations).fault = some f ↔ Recorded operations f) ∧
    ∀ pre post, operations = pre ++ post → (powerOn.performAll pre).state ≠ .running →
      (∀ o ∈ post, o.continues = true) →
        let before := powerOn.performAll pre
        let after := powerOn.performAll operations
        before.Stands after ∧ after.step = ⟨after, none, .error (.notRunning before.state)⟩ ∧
          ∀ max out, after.HasRoom (.run max out) →
            (after.runAtMost? max out).map (fun r => (r, r.executed after)) =
              some (⟨after, out, .ok ()⟩, .ok 0) := by
  refine ⟨consistent_performAll hroom, fault_eq_some_iff hroom, ?_⟩
  rintro pre post rfl hstop hpost
  have hsplit : powerOn.performAll (pre ++ post) = (powerOn.performAll pre).performAll post :=
    List.foldl_append
  have hstands := stands_performAll hstop hpost
  rw [← hsplit] at hstands
  have hstopped : (powerOn.performAll (pre ++ post)).state ≠ .running := hstands.state ▸ hstop
  refine ⟨hstands, ?_, fun max out hfits => ?_⟩
  · rw [step_of_not_running hstopped, hstands.state]
  · rw [runAtMost?_of_room hfits, run_of_not_running hstopped, Option.map_some, RunOutcome.executed,
      Except.map, UInt64.sub_self]

/-- The byte after the first instruction of the image is none, which a step finds out. -/
def derailing : List Operation :=
  [.load [0x82, 0, 5, 0xFF], .run 1 #[], .event (.raise 2), .event .step]

/-- A key and a run come after the fault. -/
def lateCalls : List Operation := [.event (.press 65 1), .run 9 #[], .event .step]

theorem derailed_stands :
    powerOn.Along perform HasRoom (derailing ++ lateCalls) ∧
      (powerOn.performAll (derailing ++ lateCalls)).fault = some (.invalidOpcode 3 0xFF) ∧
      (powerOn.performAll derailing).Stands (powerOn.performAll (derailing ++ lateCalls)) := by
  have hroom : powerOn.Along perform HasRoom (derailing ++ lateCalls) := by
    simp (disch := decide) only [derailing, lateCalls, List.cons_append, List.nil_append, Along,
      perform_run_of_room]
    decide
  have hbefore : powerOn.performAll derailing.dropLast =
      (powerOn.load [0x82, 0, 5, 0xFF]).1.step.processor.raise 2 := by
    simp (disch := decide) only [derailing, List.dropLast, performAll, List.foldl, perform_run_of_room]
    rfl
  have hstop : (powerOn.performAll derailing).state ≠ .running := by
    rw [show derailing = derailing.dropLast ++ [.event .step] from rfl, performAll_append, hbefore]
    decide
  obtain ⟨-, hfault, hstands⟩ := lifecycle hroom
  refine ⟨hroom, (hfault _).mpr ⟨derailing.dropLast, .event .step, lateCalls, rfl, ?_, ?_, by decide⟩, ?_⟩
  · rw [hbefore]
    rfl
  · rw [hbefore]
    rfl
  · exact (hstands derailing lateCalls rfl hstop (by decide)).1

end Processor

end Microcomputer
