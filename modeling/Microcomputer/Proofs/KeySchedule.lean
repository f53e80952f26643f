import Microcomputer.Proofs.Limits

/-!
A machine whose keyboard types a script is its processor with keys pressed at fixed instructions.

`KeySchedule` says when: one key in every so many instructions, as long as there are keys. `drive` is the
loop that presses the key which is due and then steps. Both count instructions, while the keyboard counts
polls down; `poll_script` says that the two come to the same.

* `agrees_runFor`: step after step the machine is where the loop is, and its keyboard where the schedule is.
* `pressed_eq`: the schedule presses the keys in order, each of them once.
* `run_follows_schedule` says what a run of a freshly loaded machine comes to, whether or not it has a limit.
-/

namespace Microcomputer

/-- Keys that are pressed on a processor, one in every `gap` instructions. -/
structure KeySchedule where
  keys : List UInt8
  gap : Nat
  line : UInt8

namespace KeySchedule

/-- The key that is pressed ahead of the `k`-th instruction, counted from one. -/
def due? (s : KeySchedule) (k : Nat) : Option UInt8 :=
  if s.gap ∣ k ∧ k / s.gap ≤ s.keys.length then s.keys[k / s.gap - 1]? else none

/-- Presses the key that is due ahead of the `k`-th instruction, if there is one. -/
def press (s : KeySchedule) (k : Nat) (p : Processor) : Processor :=
  match s.due? k with
  | some key => p.press key s.line
  | none => p

/-- After `executed` instructions at most `n` further ones, ended early by a halt or a fault, each of them
after the key that is due. Counts the instructions along, one that faults included. -/
def drive (s : KeySchedule) (n executed : Nat) (p : Processor) (out : Printout) : Nat × RunOutcome :=
  match n with
  | 0 => (executed, ⟨p, out, .ok ()⟩)
  | n + 1 =>
    if p.state = .running then
      let step := (s.press (executed + 1) p).step
      match step.result with
      | .ok _ => s.drive n (executed + 1) step.processor (out.add step.printed)
      | .error f => (executed + 1, ⟨step.processor, out.add step.printed, .error f⟩)
    else (executed, ⟨p, out, .ok ()⟩)

/-- The keys that were pressed ahead of the first `executed` instructions. -/
def pressed (s : KeySchedule) (executed : Nat) : List UInt8 :=
  (List.range executed).filterMap fun i => s.due? (i + 1)

/-- The script that a keyboard holds after `executed` polls. -/
def script (s : KeySchedule) (executed : Nat) : KeyScript where
  keys := s.keys.drop (executed / s.gap)
  interval := s.gap
  countdown := if executed / s.gap < s.keys.length then s.gap - executed % s.gap else s.gap

variable {s : KeySchedule} {n executed : Nat} {p : Processor} {out : Printout}

/-! ## The schedule -/

theorem dvd_succ_iff (hgap : 0 < s.gap) : s.gap ∣ executed + 1 ↔ executed % s.gap + 1 = s.gap := by
  obtain ⟨gap, hsucc⟩ := Nat.exists_eq_add_of_lt hgap
  rw [Nat.zero_add] at hsucc
  rw [Nat.dvd_iff_mod_eq_zero, hsucc, Nat.succ_mod_succ_eq_zero_iff]
  omega

/-- A key is due where a gap ends. -/
theorem due?_of_end (hgap : 0 < s.gap) (hend : executed % s.gap + 1 = s.gap) :
    (executed + 1) / s.gap = executed / s.gap + 1 ∧ s.due? (executed + 1) = s.keys[executed / s.gap]? := by
  have hdvd := (dvd_succ_iff hgap).mpr hend
  have hdiv : (executed + 1) / s.gap = executed / s.gap + 1 := Nat.succ_div_of_dvd hdvd
  refine ⟨hdiv, ?_⟩
  rw [due?, hdiv, Nat.add_sub_cancel]
  split
  · rfl
  · next hout => exact (List.getElem?_eq_none (by omega)).symm

theorem due?_of_within (hgap : 0 < s.gap) (hin : executed % s.gap + 1 ≠ s.gap) :
    (executed + 1) / s.gap = executed / s.gap ∧ s.due? (executed + 1) = none := by
  have hdvd : ¬s.gap ∣ executed + 1 := fun h => hin ((dvd_succ_iff hgap).mp h)
  exact ⟨Nat.succ_div_of_not_dvd hdvd, if_neg fun h => hdvd h.1⟩

theorem pressed_succ (s : KeySchedule) (executed : Nat) :
    s.pressed (executed + 1) = s.pressed executed ++ (s.due? (executed + 1)).toList := by
  rw [pressed, List.range_succ, List.filterMap_append, pressed]
  cases hdue : s.due? (executed + 1) <;> simp [hdue]

/-- The schedule presses the keys in order and each of them once. -/
theorem pressed_eq (hgap : 0 < s.gap) (executed : Nat) :
    s.pressed executed = s.keys.take (executed / s.gap) := by
  induction executed with
  | zero => rw [Nat.zero_div, List.take_zero, pressed, List.range_zero, List.filterMap_nil]
  | succ executed ih =>
    rw [pressed_succ, ih]
    by_cases hend : executed % s.gap + 1 = s.gap
    · obtain ⟨hdiv, hdue⟩ := due?_of_end hgap hend
      rw [hdiv, hdue, List.take_add_one]
    · obtain ⟨hdiv, hdue⟩ := due?_of_within hgap hend
      rw [hdiv, hdue, Option.toList_none, List.append_nil]

theorem countdown_script_pos (hgap : 0 < s.gap) (executed : Nat) : 1 ≤ (s.script executed).countdown := by
  have hrest := Nat.mod_lt executed hgap
  show 1 ≤ if executed / s.gap < s.keys.length then s.gap - executed % s.gap else s.gap
  split <;> omega

/-- A poll of the script yields the key that is due. -/
theorem poll_script (hgap : 0 < s.gap) (executed : Nat) :
    (s.script executed).poll = (s.due? (executed + 1), s.script (executed + 1)) := by
  have hrest := Nat.mod_lt executed hgap
  by_cases hleft : executed / s.gap < s.keys.length
  · have hkeys : s.keys.drop (executed / s.gap) =
        s.keys[executed / s.gap] :: s.keys.drop (executed / s.gap + 1) := List.drop_eq_getElem_cons hleft
    by_cases hend : executed % s.gap + 1 = s.gap
    · obtain ⟨hdiv, hdue⟩ := due?_of_end hgap hend
      have hmod : (executed + 1) % s.gap = 0 := Nat.mod_eq_zero_of_dvd ((dvd_succ_iff hgap).mpr hend)
      have hcountdown : ¬1 < s.gap - executed % s.gap := by omega
      simp only [script, KeyScript.poll, hkeys, hleft, if_true, hcountdown, if_false, hdue, hdiv, hmod,
        Nat.sub_zero, ite_self, List.getElem?_eq_getElem hleft]
    · obtain ⟨hdiv, hdue⟩ := due?_of_within hgap hend
      have hmod : (executed + 1) % s.gap = executed % s.gap + 1 := by
        have hbefore := Nat.div_add_mod executed s.gap
        have hafter := Nat.div_add_mod (executed + 1) s.gap
        rw [hdiv] at hafter
        omega
      have hcountdown : 1 < s.gap - executed % s.gap := by omega
      simp only [script, KeyScript.poll, hkeys, hleft, if_true, hcountdown, hdue, hdiv, hmod,
        Nat.sub_sub]
  · have hkeys : s.keys.drop (executed / s.gap) = [] := List.drop_eq_nil_of_le (Nat.le_of_not_lt hleft)
    have hdue : s.due? (executed + 1) = none := by
      by_cases hend : executed % s.gap + 1 = s.gap
      · rw [(due?_of_end hgap hend).2, List.getElem?_eq_none (Nat.le_of_not_lt hleft)]
      · exact (due?_of_within hgap hend).2
    have hover : s.keys.length ≤ (executed + 1) / s.gap :=
      (Nat.le_of_not_lt hleft).trans (Nat.div_le_div_right (Nat.le_succ executed))
    simp only [script, KeyScript.poll, hkeys, hleft, if_false, hdue, List.drop_eq_nil_of_le hover,
      Nat.not_lt.mpr hover]

/-! ## The loop -/

variable {i : Instruction Register} {f : Fault}

theorem cycles_press (s : KeySchedule) (k : Nat) (p : Processor) : (s.press k p).cycles = p.cycles := by
  unfold press
  split <;> rfl

theorem drive_of_not_running (h : p.state ≠ .running) (n : Nat) :
    s.drive n executed p out = (executed, ⟨p, out, .ok ()⟩) := by
  cases n with
  | zero => rfl
  | succ n => rw [drive, if_neg h]

theorem drive_of_ok (hrun : p.state = .running) (h : (s.press (executed + 1) p).step.result = .ok i)
    (n : Nat) :
    s.drive (n + 1) executed p out =
      s.drive n (executed + 1) (s.press (executed + 1) p).step.processor
        (out.add (s.press (executed + 1) p).step.printed) := by
  simp only [drive, hrun, if_true, h]

theorem drive_of_error (hrun : p.state = .running)
    (h : (s.press (executed + 1) p).step.result = .error f) (n : Nat) :
    s.drive (n + 1) executed p out =
      (executed + 1, ⟨(s.press (executed + 1) p).step.processor,
        out.add (s.press (executed + 1) p).step.printed, .error f⟩) := by
  simp only [drive, hrun, if_true, h]

/-- The loop takes no more turns than it may, and without a fault the processor has counted them. -/
theorem executed_drive (s : KeySchedule) (n executed : Nat) (p : Processor) (out : Printout) :
    (s.drive n executed p out).1 ≤ executed + n ∧
      (p.cycles = UInt64.ofNat executed → (s.drive n executed p out).2.result = .ok () →
        (s.drive n executed p out).2.processor.cycles = UInt64.ofNat (s.drive n executed p out).1) := by
  induction n generalizing executed p out with
  | zero => exact ⟨Nat.le_refl _, fun hcycles _ => hcycles⟩
  | succ n ih =>
    by_cases hrun : p.state = .running
    · cases hresult : (s.press (executed + 1) p).step.result with
      | ok i =>
        rw [drive_of_ok hrun hresult]
        obtain ⟨hle, hcounted⟩ := ih (executed + 1) (s.press (executed + 1) p).step.processor
          (out.add (s.press (executed + 1) p).step.printed)
        refine ⟨hle.trans_eq (by omega), fun hcycles => hcounted ?_⟩
        rw [Processor.cycles_step_of_ok hresult, cycles_press, hcycles, UInt64.ofNat_add]
        rfl
      | error f =>
        rw [drive_of_error hrun hresult]
        exact ⟨by omega, fun _ h => nomatch h⟩
    · rw [drive_of_not_running hrun]
      exact ⟨Nat.le_add_right _ _, fun hcycles _ => hcycles⟩

/-! ## The machine -/

/-- A machine without a timer whose keyboard has been polled `executed` times. -/
structure Follows (s : KeySchedule) (executed : Nat) (m : Machine) : Prop where
  timerOff : m.timer.period = 0
  ticks : m.timer.ticks = 0
  keyboard : m.keyboard = .scripted (s.script executed)
  line : m.configuration.keyboardLine = s.line
  delivered : m.keysDelivered = .ofNat (s.pressed executed).length

variable {m : Machine}

/-- Polling the devices presses the key that is due. -/
theorem Follows.pollDevices (hgap : 0 < s.gap) (h : s.Follows executed m) (now : Instant) :
    s.Follows (executed + 1) (m.pollDevices now) ∧
      (m.pollDevices now).processor = s.press (executed + 1) m.processor ∧
      (m.pollDevices now).printed = m.printed := by
  obtain ⟨hoff, hticks, hkeyboard, hline, hdelivered⟩ := h
  have htimer : m.timer.poll now.nanoseconds =
      (false, { m.timer with lastPoll := some now.nanoseconds }) := Timer.advance_off _ _ hoff
  have hpoll : m.keyboard.poll = (s.due? (executed + 1), .scripted (s.script (executed + 1))) := by
    rw [hkeyboard, Keyboard.poll, poll_script hgap]
  have hlength : UInt64.ofNat (s.pressed (executed + 1)).length =
      m.keysDelivered + .ofNat (s.due? (executed + 1)).toList.length := by
    rw [pressed_succ, List.length_append, hdelivered, UInt64.ofNat_add]
  cases hdue : s.due? (executed + 1) with
  | none =>
    rw [hdue] at hpoll hlength
    have hpolled : m.pollDevices now =
        { m with
          timer := { m.timer with lastPoll := some now.nanoseconds }
          keyboard := .scripted (s.script (executed + 1)) } := by
      simp only [Machine.pollDevices, Machine.pollTimer, Machine.afterTimer, Machine.pollKeyboard, htimer,
        hpoll]
      rfl
    rw [hpolled, press, hdue]
    exact ⟨⟨hoff, hticks, rfl, hline, (hlength.trans (UInt64.add_zero _)).symm⟩, rfl, rfl⟩
  | some key =>
    rw [hdue] at hpoll hlength
    have hpolled : m.pollDevices now =
        { m with
          timer := { m.timer with lastPoll := some now.nanoseconds }
          keyboard := .scripted (s.script (executed + 1))
          keysDelivered := m.keysDelivered + 1
          processor := m.processor.press key s.line } := by
      simp only [Machine.pollDevices, Machine.pollTimer, Machine.afterTimer, Machine.pollKeyboard, htimer,
        hpoll, hline]
      rfl
    rw [hpolled, press, hdue]
    exact ⟨⟨hoff, hticks, rfl, hline, hlength.symm⟩, rfl, rfl⟩

/-- A step of the machine is a step of the processor after the key that is due. -/
theorem Follows.stepBy (hgap : 0 < s.gap) (h : s.Follows executed m) (clock : Clock) :
    let step := (s.press (executed + 1) m.processor).step
    s.Follows (executed + 1) (m.stepBy clock).1 ∧
      (m.stepBy clock).1.processor = step.processor ∧
      (m.stepBy clock).1.printed = m.printed.add step.printed ∧ (m.stepBy clock).2 = step.result := by
  obtain ⟨hfollows, hprocessor, hprinted⟩ := h.pollDevices hgap (clock m.processor.cycles)
  obtain ⟨hoff, hticks, hkeyboard, hline, hdelivered⟩ := hfollows
  rw [← hprocessor, ← hprinted]
  exact ⟨⟨hoff, hticks, hkeyboard, hline, hdelivered⟩, rfl, rfl, rfl⟩

/-- The machine and the fault that ended its run, if one did, are those that the loop comes to. -/
structure Agrees (s : KeySchedule) (driven : Nat × RunOutcome) (m : Machine) (result : Except Fault Unit) :
    Prop where
  processor : m.processor = driven.2.processor
  printed : m.printed = driven.2.printed
  result : result = driven.2.result
  follows : s.Follows driven.1 m

/-- Step after step the machine is where the loop is. -/
theorem agrees_runFor {σ : Type} (hgap : 0 < s.gap) (look : σ → Processor → σ) (clock : Clock) (n : Nat)
    (h : s.Follows executed m) (seen : σ) :
    s.Agrees (s.drive n executed m.processor m.printed) (Machine.runFor look clock n m seen).1
      (Machine.runFor look clock n m seen).2.2 := by
  induction n generalizing executed m seen with
  | zero => exact ⟨rfl, rfl, rfl, h⟩
  | succ n ih =>
    by_cases hrun : m.processor.state = .running
    · obtain ⟨hfollows, hprocessor, hprinted, hresult⟩ := h.stepBy hgap clock
      cases hstep : (s.press (executed + 1) m.processor).step.result with
      | ok i =>
        rw [Machine.runFor_of_ok hrun (hresult.trans hstep), drive_of_ok hrun hstep, ← hprocessor,
          ← hprinted]
        exact ih hfollows _
      | error f =>
        rw [Machine.runFor_of_error hrun (hresult.trans hstep), drive_of_error hrun hstep]
        exact ⟨hprocessor, hprinted, rfl, hfollows⟩
    · rw [Machine.runFor_of_not_running hrun, drive_of_not_running hrun]
      exact ⟨rfl, rfl, rfl, h⟩

/-- What a run from the first instruction on returns, if it counted as many instructions as the loop. -/
theorem Agrees.summary (hgap : 0 < s.gap) {driven : Nat × RunOutcome} {result : Except Fault Unit}
    (h : s.Agrees driven m result) (hcycles : driven.2.processor.cycles = .ofNat driven.1) :
    m.summary 0 =
      ⟨.ofNat driven.1, driven.2.processor.state, 0, .ofNat (min s.keys.length (driven.1 / s.gap))⟩ := by
  obtain ⟨hprocessor, -, -, hfollows⟩ := h
  have hkeys : m.keysDelivered = .ofNat (min s.keys.length (driven.1 / s.gap)) := by
    rw [hfollows.delivered, pressed_eq hgap, List.length_take, Nat.min_comm]
  rw [Machine.summary, hprocessor, hcycles, hfollows.ticks, hkeys, UInt64.sub_zero]

/-! ## Whole runs -/

/-- The schedule of a script that is typed on a configured keyboard. An interval of zero counts as one. -/
def ofInterval (c : Configuration) (keys : List UInt8) (interval : UInt32) : KeySchedule :=
  ⟨keys, max interval.toNat 1, c.keyboardLine⟩

/-- A fresh machine that has loaded an image, with a script on its keyboard. -/
def loaded (c : Configuration) (image keys : List UInt8) (interval : UInt32) : Machine :=
  ((Machine.ofConfiguration c (.scripted (.ofKeys keys interval.toNat))).load image).1

/-- The loop is over after `n` turns: they are all that the limit allows, or there is none and they stop the
processor. -/
def Ends (limit : Option UInt64) (n : Nat) (driven : Nat × RunOutcome) : Prop :=
  match limit with
  | some max => n = max.toNat
  | none => driven.2.processor.state ≠ .running

/-- Under a limit the count of instructions does not wrap. -/
theorem Ends.executed_lt {limit : Option UInt64} {driven : Nat × RunOutcome} (h : Ends limit n driven)
    (hle : driven.1 ≤ n) (hlimited : limit ≠ none) : driven.1 < UInt64.size := by
  obtain ⟨max, rfl⟩ := Option.ne_none_iff_exists'.mp hlimited
  exact (hle.trans_eq h).trans_lt max.toNat_lt

section

variable {c : Configuration} {image keys : List UInt8} {interval : UInt32}

theorem gap_ofInterval_pos : 0 < (ofInterval c keys interval).gap :=
  Nat.lt_of_lt_of_le Nat.zero_lt_one (Nat.le_max_right _ _)

theorem follows_loaded (hoff : c.timerPeriodMs = 0) :
    (ofInterval c keys interval).Follows 0 (loaded c image keys interval) := by
  have hperiod : c.timerPeriod = 0 := by
    rw [Configuration.timerPeriod, hoff]
    rfl
  have hscript : (ofInterval c keys interval).script 0 = .ofKeys keys interval.toNat := by
    simp only [script, ofInterval, Nat.zero_div, Nat.zero_mod, Nat.sub_zero, ite_self, List.drop_zero]
    rfl
  exact ⟨hperiod, rfl, hscript ▸ rfl, rfl, rfl⟩

theorem cycles_loaded : (loaded c image keys interval).processor.cycles = 0 :=
  Machine.cycles_powerOn_load image

theorem limit?_loaded : (loaded c image keys interval).limit? = some c.maxCycles :=
  Machine.limit?_loaded c _ image

/-- When the loop is over, so is the run of a machine that is where the loop is. -/
theorem endsAfter_loaded {clock : Clock} {driven : Nat × RunOutcome} (hends : Ends c.maxCycles n driven)
    (h : ((loaded c image keys interval).after clock n).processor = driven.2.processor) :
    (loaded c image keys interval).EndsAfter clock n := by
  have hconfigured : (loaded c image keys interval).configuration.maxCycles = c.maxCycles := rfl
  unfold Machine.EndsAfter
  unfold Ends at hends
  rw [limit?_loaded, hconfigured]
  cases hmax : c.maxCycles with
  | none =>
    rw [hmax] at hends
    rw [h]
    exact hends
  | some max =>
    rw [hmax] at hends
    exact hends

/-- Once the loop is over, so is the run, with what the loop has come to. -/
theorem runWith?_loaded {σ : Type} (hoff : c.timerPeriodMs = 0) (look : σ → Processor → σ) (clock : Clock)
    (seen : σ) :
    let s := ofInterval c keys interval
    let driven := s.drive n 0 (Processor.powerOn.load image).1 #[]
    Ends c.maxCycles n driven →
      ∃ last seen' result,
        (loaded c image keys interval).runWith? look clock seen = some (last, seen', result) ∧
        s.Agrees driven last (result.map fun _ => ()) ∧
        ∀ summary, result = .ok summary →
          summary = ⟨.ofNat driven.1, driven.2.processor.state, 0,
            .ofNat (min keys.length (driven.1 / s.gap))⟩ := by
  intro s driven hends
  have hagrees : s.Agrees driven _ _ :=
    agrees_runFor gap_ofInterval_pos look clock n (follows_loaded hoff) seen
  have hafter : (loaded c image keys interval).EndsAfter clock n :=
    endsAfter_loaded hends (Machine.runFor_fst look clock n _ seen ▸ hagrees.processor)
  have hfits : (loaded c image keys interval).limit? ≠ none := limit?_loaded ▸ Option.some_ne_none _
  refine ⟨_, _, _, Machine.runWith?_of_endsAfter hafter hfits look seen, ?_⟩
  rw [cycles_loaded, hagrees.result]
  refine ⟨⟨hagrees.processor, hagrees.printed, ?_, hagrees.follows⟩, fun summary hreturned => ?_⟩
  · cases driven.2.result <;> rfl
  · cases hok : driven.2.result with
    | error f =>
      rw [hok] at hreturned
      cases hreturned
    | ok u =>
      rw [hok] at hreturned
      obtain ⟨-, hcounted⟩ := s.executed_drive n 0 (Processor.powerOn.load image).1 #[]
      have hcycles := hcounted (Machine.cycles_powerOn_load image) hok
      exact (Except.ok.inj hreturned).symm.trans (hagrees.summary gap_ofInterval_pos hcycles)

end

/-- With its timer off, a freshly loaded machine runs as the loop on its processor that presses the key which
is due and then steps. So it does however far the run is followed, and when the loop is over, so is the run,
which is never aborted, with a summary of the instructions executed and of the keys that were due by then, both
counted modulo `2^64`. No key is lost or repeated, and a poll never finds the countdown at zero. -/
theorem run_follows_schedule {c : Configuration} (hoff : c.timerPeriodMs = 0) (image keys : List UInt8)
    (interval : UInt32) {σ : Type} (look : σ → Processor → σ) (clock : Clock) (seen : σ) :
    let s := ofInterval c keys interval
    let m := loaded c image keys interval
    let driven (n : Nat) := s.drive n 0 (Processor.powerOn.load image).1 #[]
    (∀ n, s.Agrees (driven n) (Machine.runFor look clock n m seen).1
      (Machine.runFor look clock n m seen).2.2) ∧
    (∀ n, Ends c.maxCycles n (driven n) →
      ∃ last seen' result, m.runWith? look clock seen = some (last, seen', result) ∧
        s.Agrees (driven n) last (result.map fun _ => ()) ∧
        ∀ summary, result = .ok summary →
          summary = ⟨.ofNat (driven n).1, (driven n).2.processor.state, 0,
            .ofNat (min keys.length ((driven n).1 / s.gap))⟩ ∧
          (c.maxCycles ≠ none ∨ (driven n).1 < UInt64.size →
            summary.keys.toNat = min keys.length (summary.cycles.toNat / s.gap))) ∧
    ∀ executed, s.pressed executed ++ (s.script executed).keys = keys ∧
      1 ≤ (s.script executed).countdown := by
  intro s m driven
  have hgap : 0 < s.gap := gap_ofInterval_pos
  refine ⟨fun n => agrees_runFor hgap look clock n (follows_loaded hoff) seen, fun n hends => ?_,
    fun executed => ⟨?_, countdown_script_pos hgap executed⟩⟩
  · obtain ⟨last, seen', result, hrun, hagrees, hreturns⟩ := runWith?_loaded hoff look clock seen hends
    refine ⟨last, seen', result, hrun, hagrees,
      fun summary hreturned => ⟨hreturns summary hreturned, fun hroom => ?_⟩⟩
    have hexecuted : (driven n).1 < UInt64.size := by
      obtain ⟨hle, -⟩ := s.executed_drive n 0 (Processor.powerOn.load image).1 #[]
      rcases hroom with hlimited | hroom
      · exact hends.executed_lt (hle.trans_eq (Nat.zero_add n)) hlimited
      · exact hroom
    have hfew : min keys.length ((driven n).1 / s.gap) < UInt64.size :=
      ((Nat.min_le_right _ _).trans (Nat.div_le_self _ _)).trans_lt hexecuted
    rw [hreturns summary hreturned, UInt64.toNat_ofNat_of_lt' hfew, UInt64.toNat_ofNat_of_lt' hexecuted]
  · rw [pressed_eq hgap]
    exact List.take_append_drop _ _

/-- Five instructions at most, and no timer. -/
def fiveUntimed : Configuration :=
  { Configuration.default with timerPeriodMs := 0, maxCycles := some 5 }

/-- The program unmasks the keyboard's line and goes on to a loop. The first key interrupts it there, the
second one finds the handler at work. -/
theorem two_keys_follow_schedule :
    let m := loaded fiveUntimed [0x82, 5, 2, 0x82, 0, 3, 0x54, 0] [97, 98] 2
    fiveUntimed.timerPeriodMs = 0 ∧
      ∃ last, m.runWith? (fun seen _ => seen) .still () = some (last, (), .ok ⟨5, .running, 0, 2⟩) ∧
        last.processor.memory.read keyAddress = 98 ∧ last.processor.interrupts = ⟨2, true⟩ := by
  intro m
  obtain ⟨-, hends, -⟩ := run_follows_schedule (c := fiveUntimed) rfl
    [0x82, 5, 2, 0x82, 0, 3, 0x54, 0] [97, 98] 2 (fun (seen : Unit) _ => seen) .still ()
  obtain ⟨last, seen', result, hrun, hagrees, hsummary⟩ := hends 5 rfl
  have hok : result.map (fun _ => ()) = .ok () := hagrees.result
  refine ⟨rfl, last, ?_, ?_, ?_⟩
  · cases result with
    | error f => cases hok
    | ok summary =>
      rw [hrun, (hsummary summary rfl).1]
      rfl
  · rw [hagrees.processor]
    rfl
  · rw [hagrees.processor]
    rfl

end KeySchedule

end Microcomputer
