import Microcomputer.Machine
import Microcomputer.Proofs.Lifecycle
import Microcomputer.Proofs.Runs

/-!
Runs of a machine under a limit.

A limit bounds the steps of a run: `runWhile_some` says that the run to it is `runFor` with as many steps as
are left to it. Whoever looks at the processor before each step changes nothing (`runFor_lookers`), so that a
run's instructions can be counted by one who counts the looks: `executed`.

* `executed_of_configured`: a run whose configured limit fits executes no more instructions than are
  configured, and one that the limit ended has executed them all.
* `run_keeps_limit` says so of any machine that loads, steps and runs have brought about, and that every other
  run is aborted. The limit is counted on from the instructions before it, and so the largest one that can be
  configured does not fit once an instruction was executed: `largest_limit_aborts_run`.
-/

namespace Microcomputer

namespace Machine

section

variable {σ τ : Type} {look : σ → Processor → σ} {clock : Clock} {m : Machine} {seen : σ} {f : Fault}
  {i : Instruction Register}

/-! ## One step -/

theorem configuration_pollDevices (m : Machine) (now : Instant) :
    (m.pollDevices now).configuration = m.configuration := by
  unfold pollDevices pollKeyboard
  split <;> rfl

/-- Polling changes pending lines and the key's cell at most. -/
theorem stands_pollDevices (m : Machine) (now : Instant) :
    m.processor.Stands (m.pollDevices now).processor := by
  have htimer : m.processor.Stands (m.pollTimer now).processor := by
    show m.processor.Stands (m.processor.raiseTimer (m.timer.poll now.nanoseconds).1)
    cases (m.timer.poll now.nanoseconds).1 with
    | false => exact m.processor.stands_refl
    | true => exact m.processor.stands_refl.raise timerLine
  unfold pollDevices pollKeyboard
  split
  · exact htimer
  · exact htimer.press _ _

theorem cycles_pollDevices (m : Machine) (now : Instant) :
    (m.pollDevices now).processor.cycles = m.processor.cycles := by
  rw [(m.stands_pollDevices now).eq]

theorem configuration_stepBy (clock : Clock) (m : Machine) :
    (m.stepBy clock).1.configuration = m.configuration :=
  configuration_pollDevices m _

theorem cycles_stepBy_of_ok (h : (m.stepBy clock).2 = .ok i) :
    (m.stepBy clock).1.processor.cycles = m.processor.cycles + 1 := by
  rw [← cycles_pollDevices m (clock m.processor.cycles)]
  exact Processor.cycles_step_of_ok h

theorem configuration_load (m : Machine) (image : List UInt8) :
    (m.load image).1.configuration = m.configuration := rfl

/-! ## Counted instructions and steps -/

/-- At most `n` steps, ended early by a halt or a fault. -/
def runFor (look : σ → Processor → σ) (clock : Clock) (n : Nat) (m : Machine) (seen : σ) :
    Machine × σ × Except Fault Unit :=
  match n with
  | 0 => (m, seen, .ok ())
  | n + 1 =>
    if m.processor.state = .running then
      let seen := look seen m.processor
      match m.stepBy clock with
      | (next, .ok _) => runFor look clock n next seen
      | (next, .error f) => (next, seen, .error f)
    else (m, seen, .ok ())

theorem runFor_of_not_running (h : m.processor.state ≠ .running) (n : Nat) :
    runFor look clock n m seen = (m, seen, .ok ()) := by
  cases n with
  | zero => rfl
  | succ n => rw [runFor, if_neg h]

theorem runFor_of_ok (hrun : m.processor.state = .running) (h : (m.stepBy clock).2 = .ok i) (n : Nat) :
    runFor look clock (n + 1) m seen =
      runFor look clock n (m.stepBy clock).1 (look seen m.processor) := by
  have hstep : m.stepBy clock = ((m.stepBy clock).1, .ok i) := Prod.ext rfl h
  rw [runFor, if_pos hrun, hstep]

theorem runFor_of_error (hrun : m.processor.state = .running) (h : (m.stepBy clock).2 = .error f)
    (n : Nat) :
    runFor look clock (n + 1) m seen = ((m.stepBy clock).1, look seen m.processor, .error f) := by
  have hstep : m.stepBy clock = ((m.stepBy clock).1, .error f) := Prod.ext rfl h
  rw [runFor, if_pos hrun, hstep]

variable {limit : Option UInt64}

theorem runWhile_of_reached (hlimit : m.processor.isBelow limit = false) :
    runWhile look clock limit m seen = (m, seen, .ok ()) := by
  rw [runWhile_eq, turn, if_neg fun h => Bool.false_ne_true (hlimit ▸ h.2)]

theorem runWhile_of_ok (hrun : m.processor.state = .running) (hlimit : m.processor.isBelow limit = true)
    (h : (m.stepBy clock).2 = .ok i) :
    runWhile look clock limit m seen =
      runWhile look clock limit (m.stepBy clock).1 (look seen m.processor) := by
  have hstep : m.stepBy clock = ((m.stepBy clock).1, .ok i) := Prod.ext rfl h
  rw [runWhile_eq, turn, if_pos ⟨hrun, hlimit⟩, hstep]

theorem runWhile_of_error (hrun : m.processor.state = .running)
    (hlimit : m.processor.isBelow limit = true) (h : (m.stepBy clock).2 = .error f) :
    runWhile look clock limit m seen = ((m.stepBy clock).1, look seen m.processor, .error f) := by
  have hstep : m.stepBy clock = ((m.stepBy clock).1, .error f) := Prod.ext rfl h
  rw [runWhile_eq, turn, if_pos ⟨hrun, hlimit⟩, hstep]

/-- The count of instructions bounds the steps, as it does for the processor alone. -/
theorem runWhile_some (look : σ → Processor → σ) (clock : Clock) (limit : UInt64) (m : Machine)
    (seen : σ) :
    runWhile look clock (some limit) m seen =
      runFor look clock (limit.toNat - m.processor.cycles.toNat) m seen := by
  induction hn : limit.toNat - m.processor.cycles.toNat generalizing m seen with
  | zero =>
    apply runWhile_of_reached
    rw [Bool.eq_false_iff, Ne, Processor.isBelow_some_iff]
    omega
  | succ n ih =>
    have hbelow : m.processor.isBelow (some limit) = true := by
      rw [Processor.isBelow_some_iff]
      omega
    by_cases hrun : m.processor.state = .running
    · cases hresult : (m.stepBy clock).2 with
      | ok i =>
        rw [runWhile_of_ok hrun hbelow hresult, runFor_of_ok hrun hresult]
        apply ih
        rw [cycles_stepBy_of_ok hresult, Processor.left_of_counted hn]
      | error f => rw [runWhile_of_error hrun hbelow hresult, runFor_of_error hrun hresult]
    · rw [runWhile_eq, turn, if_neg fun hgo => hrun hgo.1, runFor_of_not_running hrun]

/-- Without a limit a run goes on until the processor stops. -/
theorem runWhile_none {n : Nat} (hstop : (runFor look clock n m seen).1.processor.state ≠ .running) :
    runWhile look clock none m seen = runFor look clock n m seen := by
  induction n generalizing m seen with
  | zero => rw [runWhile_eq, turn, if_neg fun hgo => hstop hgo.1, runFor]
  | succ n ih =>
    by_cases hrun : m.processor.state = .running
    · cases hresult : (m.stepBy clock).2 with
      | ok i =>
        rw [runFor_of_ok hrun hresult] at hstop ⊢
        rw [runWhile_of_ok hrun rfl hresult, ih hstop]
      | error f => rw [runWhile_of_error hrun rfl hresult, runFor_of_error hrun hresult]
    · rw [runWhile_eq, turn, if_neg fun hgo => hrun hgo.1, runFor_of_not_running hrun]

/-! ## What a run looks at -/

/-- Whoever looks at the processor, the run takes the same course. -/
theorem runFor_lookers (look : σ → Processor → σ) (other : τ → Processor → τ) (clock : Clock) (n : Nat)
    (m : Machine) (seen : σ) (noticed : τ) :
    (runFor look clock n m seen).1 = (runFor other clock n m noticed).1 ∧
      (runFor look clock n m seen).2.2 = (runFor other clock n m noticed).2.2 := by
  induction n generalizing m seen noticed with
  | zero => exact ⟨rfl, rfl⟩
  | succ n ih =>
    by_cases hrun : m.processor.state = .running
    · cases hresult : (m.stepBy clock).2 with
      | ok i =>
        rw [runFor_of_ok hrun hresult, runFor_of_ok hrun hresult]
        exact ih _ _ _
      | error f =>
        rw [runFor_of_error hrun hresult, runFor_of_error hrun hresult]
        exact ⟨rfl, rfl⟩
    · rw [runFor_of_not_running hrun, runFor_of_not_running hrun]
      exact ⟨rfl, rfl⟩

/-- The machine after `n` steps of a run, or fewer if it ends before. -/
def after (clock : Clock) (n : Nat) (m : Machine) : Machine := (runFor (fun _ _ => ()) clock n m ()).1

theorem runFor_fst (look : σ → Processor → σ) (clock : Clock) (n : Nat) (m : Machine) (seen : σ) :
    (runFor look clock n m seen).1 = m.after clock n :=
  (runFor_lookers look (fun _ _ => ()) clock n m seen ()).1

/-- Counts the looks at the processor. -/
def tally (count : Nat) (_ : Processor) : Nat := count + 1

/-- The count goes up by the steps that were taken, all that were allowed if the processor still runs then.
Without a fault the processor has counted as many instructions. -/
theorem tally_runFor (clock : Clock) (n : Nat) (m : Machine) (count : Nat) :
    let r := runFor tally clock n m count
    ∃ k ≤ n, r.2.1 = count + k ∧
      (r.2.2 = .ok () → r.1.processor.cycles = m.processor.cycles + UInt64.ofNat k ∧
        (r.1.processor.state = .running → k = n)) := by
  induction n generalizing m count with
  | zero => exact ⟨0, Nat.le_refl _, rfl, fun _ => ⟨(UInt64.add_zero _).symm, fun _ => rfl⟩⟩
  | succ n ih =>
    by_cases hrun : m.processor.state = .running
    · cases hresult : (m.stepBy clock).2 with
      | ok i =>
        rw [runFor_of_ok hrun hresult]
        obtain ⟨k, hk, hcount, hok⟩ := ih (m.stepBy clock).1 (count + 1)
        refine ⟨k + 1, Nat.succ_le_succ hk, ?_, fun h => ?_⟩
        · show (runFor tally clock n _ (count + 1)).2.1 = _
          rw [hcount]
          omega
        · obtain ⟨hcycles, hall⟩ := hok h
          refine ⟨?_, fun hstill => congrArg (· + 1) (hall hstill)⟩
          show (runFor tally clock n _ (count + 1)).1.processor.cycles = _
          rw [hcycles, cycles_stepBy_of_ok hresult, Nat.add_comm, UInt64.ofNat_add, UInt64.add_assoc]
          rfl
      | error f =>
        rw [runFor_of_error hrun hresult]
        exact ⟨1, Nat.le_add_left _ _, rfl, fun h => nomatch h⟩
    · rw [runFor_of_not_running hrun]
      exact ⟨0, Nat.zero_le _, rfl, fun _ => ⟨(UInt64.add_zero _).symm, fun h => absurd h hrun⟩⟩

/-! ## Whole runs -/

theorem limit?_of_unlimited (h : m.configuration.maxCycles = none) : m.limit? = some none := by
  rw [limit?, h]

theorem limit?_of_configured {max : UInt64} (h : m.configuration.maxCycles = some max) :
    m.limit? = (m.processor.limit? max).map some := by
  rw [limit?, h]

theorem limit?_eq_none_iff {max : UInt64} (h : m.configuration.maxCycles = some max) :
    m.limit? = none ↔ UInt64.size ≤ m.processor.cycles.toNat + max.toNat := by
  rw [limit?_of_configured h, Option.map_eq_none_iff, Processor.limit?_eq_none_iff]

/-- A run whose limit does not fit is aborted, and no other. -/
theorem runWith?_eq_none_iff (m : Machine) (look : σ → Processor → σ) (clock : Clock) (seen : σ) :
    m.runWith? look clock seen = none ↔ m.limit? = none := by
  rw [runWith?, Option.map_eq_none_iff]

/-- A run is over after `n` steps: they are as many as are configured, or none are and they stop the
processor. One that is aborted is over before its first step. -/
def EndsAfter (m : Machine) (clock : Clock) (n : Nat) : Prop :=
  match m.limit?, m.configuration.maxCycles with
  | none, _ => n = 0
  | some _, some max => n = max.toNat
  | some _, none => (m.after clock n).processor.state ≠ .running

/-- A run that is not aborted is as many steps as it is over after. -/
theorem runWith?_of_endsAfter {n : Nat} (h : m.EndsAfter clock n) (hfits : m.limit? ≠ none)
    (look : σ → Processor → σ) (seen : σ) :
    let r := runFor look clock n m seen
    m.runWith? look clock seen =
      some (r.1, r.2.1, r.2.2.map fun _ => r.1.summary m.processor.cycles) := by
  obtain ⟨limit, hlimit⟩ := Option.ne_none_iff_exists'.mp hfits
  rw [EndsAfter, hlimit] at h
  rw [runWith?, hlimit, Option.map_some]
  cases hmax : m.configuration.maxCycles with
  | none =>
    rw [hmax] at h
    obtain rfl := Option.some.inj ((limit?_of_unlimited hmax).symm.trans hlimit)
    rw [runWhile_none (runFor_fst look clock n m seen ▸ h)]
  | some max =>
    rw [hmax] at h
    obtain rfl : n = max.toNat := h
    rw [limit?_of_configured hmax] at hlimit
    obtain ⟨count, hcount, rfl⟩ := Option.map_eq_some_iff.mp hlimit
    rw [runWhile_some, Processor.toNat_limit hcount, Nat.add_sub_cancel_left]

theorem endsAfter_of_configured {max : UInt64} (hmax : m.configuration.maxCycles = some max)
    (hfits : m.limit? ≠ none) (clock : Clock) : m.EndsAfter clock max.toNat := by
  obtain ⟨limit, hlimit⟩ := Option.ne_none_iff_exists'.mp hfits
  rw [EndsAfter, hlimit, hmax]

theorem cycles_powerOn_load (image : List UInt8) : (Processor.powerOn.load image).1.cycles = 0 := by
  unfold Processor.load
  split <;> rfl

/-- The limit of a freshly loaded machine fits. -/
theorem limit?_loaded (c : Configuration) (keyboard : Keyboard) (image : List UInt8) :
    ((ofConfiguration c keyboard).load image).1.limit? = some c.maxCycles := by
  have hcycles : ((ofConfiguration c keyboard).load image).1.processor.cycles = 0 :=
    cycles_powerOn_load image
  have hconfigured : ((ofConfiguration c keyboard).load image).1.configuration.maxCycles = c.maxCycles :=
    rfl
  rw [limit?, hconfigured]
  cases c.maxCycles with
  | none => rfl
  | some max =>
    have hroom : (0 : UInt64).toNat + max.toNat < UInt64.size := by
      rw [UInt64.toNat_zero, Nat.zero_add]
      exact max.toNat_lt
    simp only [Processor.limit?, hcycles, if_pos hroom, Option.map_some, UInt64.zero_add]

/-- The number of instructions that a run executes, one that faults included, unless it is aborted. -/
def executed? (m : Machine) (clock : Clock) : Option Nat := (m.runWith? tally clock 0).map fun r => r.2.1

/-- A run whose limit fits executes no more instructions than are configured, and all of them if the limit
ended it. What it returns is their number. -/
theorem executed_of_configured {max : UInt64} (hmax : m.configuration.maxCycles = some max)
    (hfits : m.limit? ≠ none) (look : σ → Processor → σ) (clock : Clock) (seen : σ) :
    ∃ k ≤ max.toNat, m.executed? clock = some k ∧
      ∃ last seen' result, m.runWith? look clock seen = some (last, seen', result) ∧
        ∀ s, result = .ok s → s.cycles = UInt64.ofNat k ∧ (s.hitCycleLimit → k = max.toNat) := by
  have hends := endsAfter_of_configured hmax hfits clock
  obtain ⟨k, hk, hcount, hok⟩ := tally_runFor clock max.toNat m 0
  obtain ⟨hlast, hresult⟩ := runFor_lookers look tally clock max.toNat m seen 0
  refine ⟨k, hk, ?_, _, _, _, runWith?_of_endsAfter hends hfits look seen, fun s hs => ?_⟩
  · rw [executed?, runWith?_of_endsAfter hends hfits, Option.map_some]
    exact congrArg some (hcount.trans (Nat.zero_add k))
  · rw [hlast, hresult] at hs
    cases hend : (runFor tally clock max.toNat m 0).2.2 with
    | error f =>
      rw [hend] at hs
      cases hs
    | ok u =>
      rw [hend] at hs
      cases hs
      obtain ⟨hcycles, hall⟩ := hok hend
      refine ⟨?_, fun hhit => hall (of_decide_eq_true hhit)⟩
      rw [summary, hcycles, UInt64.add_comm, UInt64.add_sub_cancel]

end

/-! ## The configured limit -/

/-- The machines that loads, steps and runs bring about, each by a clock of its own. -/
inductive Reached (c : Configuration) : Machine → Prop
  | fresh (keyboard : Keyboard) : Reached c (ofConfiguration c keyboard)
  | load {m : Machine} (image : List UInt8) (before : Reached c m) : Reached c (m.load image).1
  | step {m : Machine} (clock : Clock) (before : Reached c m) : Reached c (m.stepBy clock).1
  | run {m last : Machine} {result : Except Fault RunSummary} (clock : Clock) (before : Reached c m)
      (returned : m.runWith? (fun seen _ => seen) clock () = some (last, (), result)) : Reached c last

theorem configuration_runFor {σ : Type} (look : σ → Processor → σ) (clock : Clock) (n : Nat) (m : Machine)
    (seen : σ) : (runFor look clock n m seen).1.configuration = m.configuration := by
  induction n generalizing m seen with
  | zero => rfl
  | succ n ih =>
    by_cases hrun : m.processor.state = .running
    · cases hresult : (m.stepBy clock).2 with
      | ok i => rw [runFor_of_ok hrun hresult, ih, configuration_stepBy]
      | error f =>
        rw [runFor_of_error hrun hresult]
        exact configuration_stepBy clock m
    · rw [runFor_of_not_running hrun]

/-- Under a limit every run that is not aborted ends, so that each machine keeps its configuration. -/
theorem Reached.configuration {c : Configuration} {max : UInt64} (hmax : c.maxCycles = some max)
    {m : Machine} (h : Reached c m) : m.configuration = c := by
  induction h with
  | fresh keyboard => rfl
  | load image before ih => rw [configuration_load, ih]
  | step clock before ih => rw [configuration_stepBy, ih]
  | @run m last result clock before returned ih =>
    have hfits : m.limit? ≠ none := fun hnone => by
      rw [(runWith?_eq_none_iff m _ clock ()).mpr hnone] at returned
      cases returned
    have hends := endsAfter_of_configured (ih ▸ hmax) hfits clock
    rw [runWith?_of_endsAfter hends hfits] at returned
    cases returned
    exact (configuration_runFor _ _ _ _ _).trans ih

/-- A run is aborted exactly if the instructions that are configured, counted on from those before it, do not
fit into 64 bits. Every other run returns, has executed no more instructions than are configured, and says how
many if no fault ended it. If its limit ended it, they are as many as are configured. -/
theorem run_keeps_limit {c : Configuration} {max : UInt64} (hmax : c.maxCycles = some max) {m : Machine}
    (hm : Reached c m) {σ : Type} (look : σ → Processor → σ) (clock : Clock) (seen : σ) :
    (m.runWith? look clock seen = none ↔ UInt64.size ≤ m.processor.cycles.toNat + max.toNat) ∧
      (m.processor.cycles.toNat + max.toNat < UInt64.size →
        ∃ k ≤ max.toNat, m.executed? clock = some k ∧
          ∃ last seen' result, m.runWith? look clock seen = some (last, seen', result) ∧
            ∀ s, result = .ok s → s.cycles.toNat = k ∧ (s.hitCycleLimit → k = max.toNat)) := by
  have hconfigured : m.configuration.maxCycles = some max := hm.configuration hmax ▸ hmax
  refine ⟨(runWith?_eq_none_iff m look clock seen).trans (limit?_eq_none_iff hconfigured), fun hroom => ?_⟩
  have hfits : m.limit? ≠ none := fun hnone =>
    absurd ((limit?_eq_none_iff hconfigured).mp hnone) (Nat.not_le.mpr hroom)
  obtain ⟨k, hk, hexecuted, last, seen', result, hrun, hok⟩ :=
    executed_of_configured hconfigured hfits look clock seen
  refine ⟨k, hk, hexecuted, last, seen', result, hrun, fun s hs => ?_⟩
  obtain ⟨hcycles, hall⟩ := hok s hs
  refine ⟨?_, hall⟩
  rw [hcycles, UInt64.toNat_ofNat', Nat.mod_eq_of_lt (hk.trans_lt max.toNat_lt)]

/-- A machine at the second instruction of its image. -/
def begun (c : Configuration) (image : List UInt8) : Machine :=
  (((ofConfiguration c .absent).load image).1.stepBy .still).1

theorem reached_begun (c : Configuration) (image : List UInt8) : Reached c (begun c image) :=
  .step .still (.load image (.fresh .absent))

def fiveInstructions : Configuration := { Configuration.default with maxCycles := some 5 }

/-- A loop of two instructions. -/
def looping : Machine := begun fiveInstructions [0x82, 0, 0, 0x54, 0]

theorem looping_keeps_limit :
    (∃ last, looping.run? = some (last, .ok ⟨5, .running, 0, 0⟩)) ∧ looping.executed? .still = some 5 := by
  obtain ⟨-, hreturns⟩ := run_keeps_limit rfl (reached_begun fiveInstructions [0x82, 0, 0, 0x54, 0])
    (fun (seen : Unit) _ => seen) .still ()
  obtain ⟨k, -, hexecuted, last, seen', result, hrun, hok⟩ := hreturns (by decide)
  have hfits : looping.limit? ≠ none := by decide
  have hmax : looping.configuration.maxCycles = some 5 := rfl
  have hends : looping.EndsAfter .still 5 := endsAfter_of_configured hmax hfits .still
  have hrun' := runWith?_of_endsAfter hends hfits (fun (seen : Unit) _ => seen) ()
  obtain rfl : result = .ok ⟨5, .running, 0, 0⟩ :=
    congrArg (fun r => r.2.2) (Option.some.inj (hrun.symm.trans hrun'))
  obtain ⟨-, hall⟩ := hok _ rfl
  refine ⟨⟨last, ?_⟩, hexecuted.trans (congrArg some (hall rfl))⟩
  rw [run?]
  exact congrArg (Option.map _) hrun

/-- The largest limit that can be configured. -/
def mostInstructions : Configuration :=
  { Configuration.default with timerPeriodMs := 0, maxCycles := some 0xFFFFFFFFFFFFFFFF }

/-- The next instruction is a halt. -/
def beforeHalt : Machine := begun mostInstructions [0x00, 0x01]

/-- After one instruction the largest limit does not fit. The run that should execute the halt which is next
is aborted. -/
theorem largest_limit_aborts_run :
    Configuration.ofText "\x7b\"timer_period_ms\":0,\"max_cycles\":18446744073709551615\x7d" =
        .ok mostInstructions ∧
      Reached mostInstructions beforeHalt ∧ beforeHalt.processor.state = .running ∧
      beforeHalt.step.2 = .ok .halt ∧
      UInt64.size ≤ beforeHalt.processor.cycles.toNat + (0xFFFFFFFFFFFFFFFF : UInt64).toNat ∧
      beforeHalt.run? = none := by
  have hoverflow :
      UInt64.size ≤ beforeHalt.processor.cycles.toNat + (0xFFFFFFFFFFFFFFFF : UInt64).toNat := by decide
  have hnone : beforeHalt.limit? = none := (limit?_eq_none_iff rfl).mpr hoverflow
  refine ⟨rfl, reached_begun _ _, rfl, rfl, hoverflow, ?_⟩
  rw [run?, (runWith?_eq_none_iff beforeHalt _ .still ()).mpr hnone]
  rfl

end Machine

end Microcomputer
