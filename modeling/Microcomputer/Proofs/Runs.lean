import Microcomputer.Proofs.Dispatch

/-!
Runs, and the steps that they are made of.

The loop of a run looks at the count of instructions, which each step moves on. `runWhile_some` says that the
count bounds the steps: a run to a limit is `run` with as many steps as there are left to the limit, and
`runAtMost?_of_room` says so of a run of at most so many instructions, if its limit fits. `Ends` follows the
loop of a run without a limit to its end.

* `run_of_ends`: a run that has ended by then is the same for every larger bound.
* `run_run`: a run continued, whatever ended it, leaves what one longer run leaves.
* `executed_run`: what a run without a fault returns is the number of steps that succeeded.
* `runAtMost_iterates` puts this together for runs whose limit fits.
-/

namespace Microcomputer

namespace Processor

section

variable {p q : Processor} {i : Instruction Register} {f : Fault}

theorem cycles_of_completes {done : Processor} {printed : Option Printed}
    (h : p.Completes i printed done) : done.cycles = p.cycles + 1 := by
  obtain ⟨q, next, heffect, rfl⟩ := effect_of_completes h
  exact congrArg (· + 1) heffect.cycles

/-- A step that succeeds counts one instruction. -/
theorem cycles_step_of_ok (h : p.step.result = .ok i) : p.step.processor.cycles = p.cycles + 1 := by
  have hstep := p.outcome_step
  generalize p.step = outcome at h hstep
  cases hstep with
  | stopped | undecoded | failed | unserved => cases h
  | idle completes | served completes =>
    have hdone := cycles_of_completes completes
    exact hdone

/-- A step counts at most one instruction. -/
theorem cycles_step_le (p : Processor) : p.step.processor.cycles.toNat ≤ p.cycles.toNat + 1 := by
  have hdone {i printed done} (h : p.Completes i printed done) :
      done.cycles.toNat ≤ p.cycles.toNat + 1 := by
    rw [cycles_of_completes h, UInt64.toNat_add]
    exact Nat.mod_le _ _
  have hstep := p.outcome_step
  generalize p.step = outcome at hstep
  cases hstep with
  | stopped | undecoded => exact Nat.le_succ _
  | @failed i q f run decode execute =>
    show q.cycles.toNat ≤ _
    rw [(sameBesideRegisters_of_failed execute).eq]
    exact Nat.le_succ _
  | idle completes | served completes | unserved completes =>
    have hle := hdone completes
    exact hle

/-- A step that fails leaves the processor stopped. -/
theorem not_running_of_error (h : p.step.result = .error f) : p.step.processor.state ≠ .running := by
  have hstep := p.outcome_step
  generalize p.step = outcome at h hstep
  cases hstep with
  | stopped stopped => exact stopped
  | undecoded | failed | unserved =>
    intro hrun
    cases hrun
  | idle | served => cases h

/-! ## One step of a loop -/

theorem run_of_ok (hrun : p.state = .running) (h : p.step.result = .ok i) (n : Nat) (out : Printout) :
    p.run (n + 1) out = p.step.processor.run n (out.add p.step.printed) := by
  simp only [run, hrun, if_true, h]

theorem run_of_error (hrun : p.state = .running) (h : p.step.result = .error f) (n : Nat)
    (out : Printout) :
    p.run (n + 1) out = ⟨p.step.processor, out.add p.step.printed, .error f⟩ := by
  simp only [run, hrun, if_true, h]

variable {limit : Option UInt64}

theorem runWhile_of_not_running (hstop : p.state ≠ .running) (out : Printout) :
    p.runWhile limit out = ⟨p, out, .ok ()⟩ := by
  rw [runWhile_eq, turn, if_neg fun h => hstop h.1]

theorem runWhile_of_reached (hlimit : p.isBelow limit = false) (out : Printout) :
    p.runWhile limit out = ⟨p, out, .ok ()⟩ := by
  rw [runWhile_eq, turn, if_neg fun h => Bool.false_ne_true (hlimit ▸ h.2)]

theorem runWhile_of_ok (hrun : p.state = .running) (hlimit : p.isBelow limit = true)
    (h : p.step.result = .ok i) (out : Printout) :
    p.runWhile limit out = p.step.processor.runWhile limit (out.add p.step.printed) := by
  rw [runWhile_eq, turn, if_pos ⟨hrun, hlimit⟩]
  simp only [h]

theorem runWhile_of_error (hrun : p.state = .running) (hlimit : p.isBelow limit = true)
    (h : p.step.result = .error f) (out : Printout) :
    p.runWhile limit out = ⟨p.step.processor, out.add p.step.printed, .error f⟩ := by
  rw [runWhile_eq, turn, if_pos ⟨hrun, hlimit⟩]
  simp only [h]

theorem isBelow_some_iff (p : Processor) (limit : UInt64) :
    p.isBelow (some limit) = true ↔ p.cycles.toNat < limit.toNat := by
  rw [isBelow, Option.all_some, decide_eq_true_iff, UInt64.lt_iff_toNat_lt]

/-! ## Counted instructions and steps -/

/-- An instruction counted below a limit brings the count one nearer to it and cannot wrap it. -/
theorem left_of_counted {limit count : UInt64} {n : Nat} (h : limit.toNat - count.toNat = n + 1) :
    limit.toNat - (count + 1).toNat = n := by
  have hlimit := limit.toNat_lt
  have hone : (1 : UInt64).toNat = 1 := rfl
  rw [UInt64.toNat_add]
  omega

/-- The count of instructions bounds the steps. A step that fails ends the loop, counted or not. -/
theorem runWhile_some (limit : UInt64) (p : Processor) (out : Printout) :
    p.runWhile (some limit) out = p.run (limit.toNat - p.cycles.toNat) out := by
  induction hn : limit.toNat - p.cycles.toNat generalizing p out with
  | zero =>
    have hreached : p.isBelow (some limit) = false := by
      rw [Bool.eq_false_iff, Ne, isBelow_some_iff]
      omega
    exact runWhile_of_reached hreached out
  | succ n ih =>
    have hbelow : p.isBelow (some limit) = true := by
      rw [isBelow_some_iff]
      omega
    by_cases hrun : p.state = .running
    · cases hresult : p.step.result with
      | ok i =>
        rw [runWhile_of_ok hrun hbelow hresult, run_of_ok hrun hresult]
        apply ih
        rw [cycles_step_of_ok hresult, left_of_counted hn]
      | error f => rw [runWhile_of_error hrun hbelow hresult, run_of_error hrun hresult]
    · rw [runWhile_of_not_running hrun, run_of_not_running hrun]

theorem limit?_of_room {n : UInt64} (h : p.cycles.toNat + n.toNat < UInt64.size) :
    p.limit? n = some (p.cycles + n) := if_pos h

/-- Where the limit fits, there are as many steps as instructions were asked for. -/
theorem runAtMost?_of_room {n : UInt64} (h : p.cycles.toNat + n.toNat < UInt64.size) (out : Printout) :
    p.runAtMost? n out = some (p.run n.toNat out) := by
  have hlimit := limit?_of_room h
  rw [runAtMost?, hlimit, Option.map_some, runWhile_some, toNat_limit hlimit, Nat.add_sub_cancel_left]

theorem perform_run_of_room {n : UInt64} (h : p.cycles.toNat + n.toNat < UInt64.size) (out : Printout) :
    p.perform (.run n out) = (p.run n.toNat out).processor := by
  rw [perform, runAtMost?_of_room h]

/-- A run whose limit does not fit is aborted. -/
theorem perform_run_of_overflow {n : UInt64} (h : UInt64.size ≤ p.cycles.toNat + n.toNat) (out : Printout) :
    p.perform (.run n out) = p := by
  rw [perform, (p.runAtMost?_eq_none_iff n out).mpr h]

/-- A run of a processor that has stopped changes nothing, aborted or not. -/
theorem perform_run_of_not_running (h : p.state ≠ .running) (max : UInt64) (out : Printout) :
    p.perform (.run max out) = p := by
  rcases Nat.lt_or_ge (p.cycles.toNat + max.toNat) UInt64.size with hroom | hfull
  · rw [perform_run_of_room hroom, run_of_not_running h]
  · exact perform_run_of_overflow hfull out

/-- What every step keeps, a run of at most so many instructions keeps. -/
theorem perform_run_keeps {kept : Processor → Prop} (hstep : ∀ q, kept q → kept q.step.processor)
    (max : UInt64) (out : Printout) (hp : kept p) : kept (p.perform (.run max out)) := by
  rcases Nat.lt_or_ge (p.cycles.toNat + max.toNat) UInt64.size with hroom | hfull
  · rw [perform_run_of_room hroom]
    exact run_keeps hstep _ out hp
  · rw [perform_run_of_overflow hfull]
    exact hp

/-! ## Ends of runs -/

/-- The loop of a run to the end, followed to where it ends: after `k` steps, with the outcome `r`. -/
inductive Ends : Processor → Printout → Nat → RunOutcome → Prop
  | stopped {p : Processor} {out : Printout} (stopped : p.state ≠ .running) :
      Ends p out 0 ⟨p, out, .ok ()⟩
  | failed {p : Processor} {out : Printout} {f : Fault} (run : p.state = .running)
      (error : p.step.result = .error f) :
      Ends p out 1 ⟨p.step.processor, out.add p.step.printed, .error f⟩
  | step {p : Processor} {out : Printout} {i : Instruction Register} {k : Nat} {r : RunOutcome}
      (run : p.state = .running) (ok : p.step.result = .ok i)
      (rest : Ends p.step.processor (out.add p.step.printed) k r) : Ends p out (k + 1) r

variable {out : Printout} {k : Nat} {r : RunOutcome}

theorem runToEnd_of_ends (h : Ends p out k r) : p.runToEnd out = r := by
  unfold runToEnd
  induction h with
  | stopped stopped => exact runWhile_of_not_running stopped _
  | failed run error => exact runWhile_of_error run rfl error _
  | step run ok rest ih => rw [runWhile_of_ok run rfl ok, ih]

/-- A run that ends after `k` steps ends so under every bound from `k` on. -/
theorem run_of_ends (h : Ends p out k r) {n : Nat} (hn : k ≤ n) : p.run n out = r := by
  induction h generalizing n with
  | stopped stopped => exact run_of_not_running stopped _ _
  | failed run error =>
    obtain ⟨n, rfl⟩ := Nat.exists_eq_add_of_le' hn
    exact run_of_error run error _ _
  | step run ok rest ih =>
    obtain ⟨n, rfl⟩ := Nat.exists_eq_add_of_le' (Nat.le_trans (Nat.le_add_left 1 _) hn)
    rw [run_of_ok run ok]
    exact ih (Nat.le_of_succ_le_succ hn)

/-- A run that a fault ended has stopped the processor. -/
theorem not_running_of_run_error {n : Nat} (h : (p.run n out).result = .error f) :
    (p.run n out).processor.state ≠ .running := by
  induction n generalizing p out with
  | zero => cases h
  | succ n ih =>
    by_cases hrun : p.state = .running
    · cases hresult : p.step.result with
      | ok i =>
        rw [run_of_ok hrun hresult] at h ⊢
        exact ih h
      | error g =>
        rw [run_of_error hrun hresult]
        exact not_running_of_error hresult
    · rw [run_of_not_running hrun] at h
      cases h

/-- A run continued leaves what one longer run leaves, also if a fault ended it: there is nothing then for
the rest to do. -/
theorem run_run (p : Processor) (out : Printout) (m n : Nat) :
    ((p.run m out).processor.run n (p.run m out).printed).processor = (p.run (m + n) out).processor ∧
      ((p.run m out).processor.run n (p.run m out).printed).printed = (p.run (m + n) out).printed := by
  rw [run_add]
  cases hresult : (p.run m out).result with
  | ok u => exact ⟨rfl, rfl⟩
  | error f =>
    rw [run_of_not_running (not_running_of_run_error hresult)]
    exact ⟨rfl, rfl⟩

theorem cycles_run_le (p : Processor) (n : Nat) (out : Printout) :
    (p.run n out).processor.cycles.toNat ≤ p.cycles.toNat + n := by
  induction n generalizing p out with
  | zero => exact Nat.le_refl _
  | succ n ih =>
    have hstep := p.cycles_step_le
    by_cases hrun : p.state = .running
    · cases hresult : p.step.result with
      | ok i =>
        have hrest := ih p.step.processor (out.add p.step.printed)
        rw [run_of_ok hrun hresult]
        omega
      | error f =>
        rw [run_of_error hrun hresult]
        exact Nat.le_trans hstep (by omega)
    · rw [run_of_not_running hrun]
      exact Nat.le_add_right _ _

/-! ## What a run returns -/

/-- How many of the next `n` steps succeed before one that does not. -/
def successes (p : Processor) : Nat → Nat
  | 0 => 0
  | n + 1 =>
    match p.step.result with
    | .ok _ => p.step.processor.successes n + 1
    | .error _ => 0

/-- A run without a fault has counted the steps that succeeded. -/
theorem cycles_run_of_ok {n : Nat} (h : (p.run n out).result = .ok ()) :
    (p.run n out).processor.cycles = p.cycles + UInt64.ofNat (p.successes n) := by
  induction n generalizing p out with
  | zero => exact (UInt64.add_zero _).symm
  | succ n ih =>
    by_cases hrun : p.state = .running
    · cases hresult : p.step.result with
      | ok i =>
        rw [run_of_ok hrun hresult] at h ⊢
        rw [ih h, cycles_step_of_ok hresult, successes, hresult, Nat.add_comm, UInt64.ofNat_add,
          UInt64.add_assoc]
        rfl
      | error f =>
        rw [run_of_error hrun hresult] at h
        cases h
    · rw [run_of_not_running hrun, successes, step_of_not_running hrun]
      exact (UInt64.add_zero _).symm

theorem executed_run (p : Processor) (n : Nat) (out : Printout) :
    (p.run n out).executed p = (p.run n out).result.map fun _ => UInt64.ofNat (p.successes n) := by
  unfold RunOutcome.executed
  cases hresult : (p.run n out).result with
  | ok u =>
    have hcycles := cycles_run_of_ok hresult
    rw [hcycles, UInt64.add_comm, UInt64.add_sub_cancel]
  | error f => rfl

end

/-- As long as its limit fits, a run of at most `n` instructions is `n` steps, ended early by a halt or a fault,
and returns how many steps succeeded or the fault. Two runs in a row leave what one run of both their lengths
leaves, whatever ended the first. A run to the end that ends within `n` steps is a run of at most `n`
instructions. -/
theorem runAtMost_iterates {p : Processor} (out : Printout) {n : UInt64}
    (hroom : p.cycles.toNat + n.toNat < UInt64.size) :
    (p.runAtMost? n out = some (p.run n.toNat out) ∧
      (p.run n.toNat out).executed p =
        (p.run n.toNat out).result.map fun _ => UInt64.ofNat (p.successes n.toNat)) ∧
    (∀ m₁ m₂ : UInt64, m₁.toNat + m₂.toNat = n.toNat →
      ∃ first second whole, p.runAtMost? m₁ out = some first ∧
        first.processor.runAtMost? m₂ first.printed = some second ∧ p.runAtMost? n out = some whole ∧
        second.processor = whole.processor ∧ second.printed = whole.printed) ∧
    ∀ k r, Ends p out k r → p.runToEnd out = r ∧ (k ≤ n.toNat → p.runAtMost? n out = some r) := by
  have hn := runAtMost?_of_room hroom out
  refine ⟨⟨hn, executed_run p _ out⟩, fun m₁ m₂ hsum => ?_,
    fun k r hends => ⟨runToEnd_of_ends hends, fun hk => ?_⟩⟩
  · -- The first run leaves room for the second, since it counted at most its own length.
    have hfirst := runAtMost?_of_room (p := p) (n := m₁) (by omega) out
    have hcycles := p.cycles_run_le m₁.toNat out
    have hsecond := runAtMost?_of_room (p := (p.run m₁.toNat out).processor) (n := m₂) (by omega)
      (p.run m₁.toNat out).printed
    rw [← hsum] at hn
    exact ⟨_, _, _, hfirst, hsecond, hn, run_run p out m₁.toNat m₂.toNat⟩
  · rw [hn, run_of_ends hends hk]

/-- Three instructions are left, of which the last raises a line that finds no room, and ten instructions to
where the count does not fit. -/
def lateCrowded : Processor :=
  { (powerOn.load [0x82, 5, 0xFF, 0x82, 7, 12, 0x52, 0]).1 with cycles := 0xFFFFFFFFFFFFFFF6 }

theorem lateCrowded_iterates :
    lateCrowded.cycles.toNat + (9 : UInt64).toNat < UInt64.size ∧
      (lateCrowded.runAtMost? 2 #[]).map (·.executed lateCrowded) = some (.ok 2) ∧
      (lateCrowded.runAtMost? 9 #[]).map (·.executed lateCrowded) = some (.error (.stackOverflow 12)) ∧
      (∃ first second whole, lateCrowded.runAtMost? 2 #[] = some first ∧
        first.processor.runAtMost? 7 first.printed = some second ∧
        lateCrowded.runAtMost? 9 #[] = some whole ∧ second.processor = whole.processor ∧
        second.printed = whole.printed) ∧
      lateCrowded.runAtMost? 9 #[] = some (lateCrowded.runToEnd #[]) ∧
      lateCrowded.runAtMost? 10 #[] = none := by
  have hroom : lateCrowded.cycles.toNat + (9 : UInt64).toNat < UInt64.size := by decide
  have hends : Ends lateCrowded #[] 3 _ := .step rfl rfl (.step rfl rfl (.failed rfl rfl))
  obtain ⟨⟨hnine, hreturned⟩, hsplit, hend⟩ := runAtMost_iterates #[] hroom
  obtain ⟨⟨htwo, hcounted⟩, -⟩ := runAtMost_iterates (p := lateCrowded) (n := 2) #[] (by decide)
  obtain ⟨hwhole, hshort⟩ := hend 3 _ hends
  refine ⟨hroom, ?_, ?_, hsplit 2 7 rfl, ?_, by decide⟩
  · rw [htwo, Option.map_some, hcounted]
    rfl
  · rw [hnine, Option.map_some, hreturned]
    rfl
  · rw [hwhole]
    exact hshort (by decide)

end Processor

end Microcomputer
