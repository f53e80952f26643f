import Mathlib.Logic.Function.Iterate
import Microcomputer.Debugger.Basic
import Microcomputer.Proofs.Runs

/-!
A debugger's run, carried on by ticks, against plain steps of its processor.

As long as no time passes the timer does not fire: `Timer.Idles.poll`. A tick is then a step of the processor,
until a step has come to a breakpoint or has stopped the processor. `Going` and `Over` say how far a run has
come by some ticks, before and after its end, and `going_or_over` follows them tick by tick.

* `ticks_stop_first`: a run is as many steps as lead to the first breakpoint or to a processor that has
  stopped, or as there were ticks if nothing stops it before.
-/

namespace Microcomputer

namespace Timer

/-- A poll at this instant lets no time pass. -/
def Idles (now : Instant) (t : Timer) : Prop := t.sinceLastPoll now.nanoseconds = 0

/-- Without time there is no firing, now or at a further poll. -/
theorem Idles.poll {t : Timer} {now : Instant} (h : t.Idles now) :
    (t.poll now.nanoseconds).1 = false ∧ (t.poll now.nanoseconds).2.Idles now := by
  have hpoll : t.poll now.nanoseconds = (false, { t with lastPoll := some now.nanoseconds }) := by
    rw [Timer.poll, h]
    exact advance_zero _
  rw [hpoll]
  exact ⟨rfl, Nat.sub_self now.nanoseconds⟩

end Timer

/-- Of the numbers from one to `n`, `j` is the first at which something stops, or `n` if nothing stops before. -/
structure FirstStop (stops : Nat → Prop) (n j : Nat) : Prop where
  pos : 1 ≤ j
  le : j ≤ n
  before : ∀ i, 1 ≤ i → i < j → ¬stops i
  last : stops j ∨ j = n

theorem FirstStop.unique {stops : Nat → Prop} {n j k : Nat} (hj : FirstStop stops n j)
    (hk : FirstStop stops n k) : j = k := by
  have hle {j k : Nat} (hj : FirstStop stops n j) (hk : FirstStop stops n k) : k ≤ j := by
    by_contra hlt
    rcases hj.last with hstops | rfl
    · exact hk.before j hj.pos (Nat.lt_of_not_le hlt) hstops
    · exact hlt hk.le
  exact Nat.le_antisymm (hle hk hj) (hle hj hk)

namespace Debugger

/-- A step of the processor alone, with what it prints. -/
def plainStep (r : Processor × Printout) : Processor × Printout :=
  (r.1.step.processor, r.2.add r.1.step.printed)

/-- The processor after `i` plain steps, and what is printed by then. -/
def plainly (d : Debugger) (i : Nat) : Processor × Printout := plainStep^[i] (d.processor, d.printed)

/-- After `i` plain steps the processor has come to a breakpoint or does not run. -/
def Stops (d : Debugger) (i : Nat) : Prop :=
  d.breakpoints.contains (d.plainly i).1.pc = true ∨ (d.plainly i).1.state ≠ .running

instance (d : Debugger) (i : Nat) : Decidable (d.Stops i) := inferInstanceAs (Decidable (_ ∨ _))

section

variable {d e : Debugger} {now : Instant} {n j : Nat}

theorem plainly_succ (d : Debugger) (i : Nat) : d.plainly (i + 1) = plainStep (d.plainly i) :=
  Function.iterate_succ_apply' plainStep i _

/-! ## One tick -/

/-- If no time passes, a step lets the processor step. It ends a run if the processor's step fails. -/
theorem stepAt_of_idles (hrun : e.processor.state = .running) (hidles : e.timer.Idles now) :
    ((e.stepAt now).processor, (e.stepAt now).printed) = plainStep (e.processor, e.printed) ∧
      (e.stepAt now).running = (e.running && e.processor.step.result.isOk) ∧
      (e.stepAt now).breakpoints = e.breakpoints ∧ (e.stepAt now).timer.Idles now := by
  obtain ⟨hquiet, hstill⟩ := hidles.poll
  have hpolled : (e.pollTimer now).processor = e.processor := by
    simp only [pollTimer, hquiet]
    rfl
  rw [stepAt, if_pos hrun]
  simp only [hpolled]
  cases e.processor.step.result with
  | ok i => exact ⟨rfl, (Bool.and_true _).symm, rfl, hstill⟩
  | error f => exact ⟨rfl, (Bool.and_false _).symm, rfl, hstill⟩

/-- Looking for a breakpoint stops a run at one and changes nothing else but the status. -/
theorem checkBreakpoint_spec (e : Debugger) :
    e.checkBreakpoint.processor = e.processor ∧ e.checkBreakpoint.printed = e.printed ∧
      e.checkBreakpoint.running = (e.running && !e.breakpoints.contains e.processor.pc) ∧
      e.checkBreakpoint.breakpoints = e.breakpoints ∧ e.checkBreakpoint.timer = e.timer := by
  unfold checkBreakpoint
  split
  · next hstop =>
    obtain ⟨-, hat⟩ := (Bool.and_eq_true _ _).mp hstop
    exact ⟨rfl, rfl, by simp [hat], rfl, rfl⟩
  · next hgo => exact ⟨rfl, rfl, by simp_all, rfl, rfl⟩

/-- A tick of a run is a step of the processor. The run goes on if the step succeeds and does not come to a
breakpoint. -/
theorem tickAt_of_idles (hrunning : e.running = true) (hrun : e.processor.state = .running)
    (hidles : e.timer.Idles now) :
    ((e.tickAt now).processor, (e.tickAt now).printed) = plainStep (e.processor, e.printed) ∧
      (e.tickAt now).running =
        (e.processor.step.result.isOk && !e.breakpoints.contains (e.tickAt now).processor.pc) ∧
      (e.tickAt now).breakpoints = e.breakpoints ∧ (e.tickAt now).timer.Idles now := by
  obtain ⟨hstep, hstepRunning, hstepBreakpoints, hstepIdles⟩ := stepAt_of_idles hrun hidles
  obtain ⟨hprocessor, hprinted, hcheckRunning, hcheckBreakpoints, htimer⟩ :=
    (e.stepAt now).checkBreakpoint_spec
  rw [Debugger.tickAt, if_pos hrunning, if_pos hrun]
  refine ⟨?_, ?_, hcheckBreakpoints.trans hstepBreakpoints, htimer ▸ hstepIdles⟩
  · rw [hprocessor, hprinted]
    exact hstep
  · rw [hcheckRunning, hprocessor, hstepRunning, hstepBreakpoints, hrunning, Bool.true_and]

/-! ## Ticks -/

/-- After `n` ticks nothing has stopped the run. -/
structure Going (d : Debugger) (now : Instant) (n : Nat) (e : Debugger) : Prop where
  reached : (e.processor, e.printed) = d.plainly n
  before : ∀ i, 1 ≤ i → i ≤ n → ¬d.Stops i
  breakpoints : e.breakpoints = d.breakpoints
  running : e.running = true
  state : e.processor.state = .running
  idles : e.timer.Idles now

/-- The `j`-th tick has stopped the run. Only one that has come to a halt goes on being called a run. -/
structure Over (d : Debugger) (j : Nat) (e : Debugger) : Prop where
  reached : (e.processor, e.printed) = d.plainly j
  pos : 1 ≤ j
  before : ∀ i, 1 ≤ i → i < j → ¬d.Stops i
  stops : d.Stops j
  idle : e.running = true → e.processor.state ≠ .running ∧ d.breakpoints.contains e.processor.pc = false

/-- A tick carries a run on by a step, which may be its last. -/
theorem Going.tickAt (h : d.Going now n e) :
    d.Going now (n + 1) (e.tickAt now) ∨ d.Over (n + 1) (e.tickAt now) := by
  obtain ⟨hreached, hbefore, hbreakpoints, hrunning, hstate, hidles⟩ := h
  obtain ⟨hstep, hgoes, hkept, hstill⟩ := tickAt_of_idles hrunning hstate hidles
  have hnext : ((e.tickAt now).processor, (e.tickAt now).printed) = d.plainly (n + 1) := by
    rw [plainly_succ, ← hreached]
    exact hstep
  have hprocessor : (d.plainly (n + 1)).1 = (e.tickAt now).processor := (congrArg Prod.fst hnext).symm
  rw [hbreakpoints] at hgoes
  by_cases hstops : d.Stops (n + 1)
  · refine .inr ⟨hnext, Nat.le_add_left _ _, fun i hi hlt => hbefore i hi (Nat.le_of_lt_succ hlt), hstops,
      fun hrunning => ?_⟩
    rw [hgoes, Bool.and_eq_true, Bool.not_eq_true'] at hrunning
    rw [Stops, hprocessor, hrunning.2] at hstops
    exact ⟨hstops.resolve_left Bool.false_ne_true, hrunning.2⟩
  · have hgo : ∀ i, 1 ≤ i → i ≤ n + 1 → ¬d.Stops i := by
      intro i hi hle
      rcases Nat.lt_or_eq_of_le hle with hlt | rfl
      · exact hbefore i hi (Nat.le_of_lt_succ hlt)
      · exact hstops
    rw [Stops, hprocessor, not_or, Bool.not_eq_true, not_not] at hstops
    obtain ⟨hfree, hrun⟩ := hstops
    have hok : e.processor.step.result.isOk = true := by
      cases hresult : e.processor.step.result with
      | ok i => rfl
      | error f =>
        have hdead := Processor.not_running_of_error hresult
        have hsame : (e.tickAt now).processor = e.processor.step.processor := congrArg Prod.fst hstep
        exact absurd (hsame ▸ hrun) hdead
    rw [hok, hfree] at hgoes
    exact .inl ⟨hnext, hgo, hkept.trans hbreakpoints, hgoes, hrun, hstill⟩

/-- A run that is over stays as it is, but for its name. -/
theorem Over.tickAt (h : d.Over j e) : d.Over j (e.tickAt now) := by
  rw [Debugger.tickAt]
  split
  · next hrunning =>
    rw [if_neg (h.idle hrunning).1]
    exact ⟨h.reached, h.pos, h.before, h.stops, fun hrun => nomatch hrun⟩
  · exact h

/-- By every number of ticks a run has either gone as far or has ended at its first stop. -/
theorem going_or_over (htimer : d.timer.Idles now) (hrun : d.processor.state = .running) (n : Nat) :
    d.Going now n ((Debugger.tickAt now)^[n] d.run) ∨
      ∃ j ≤ n, d.Over j ((Debugger.tickAt now)^[n] d.run) := by
  induction n with
  | zero => exact .inl ⟨rfl, fun i hi hle => absurd hi (by omega), rfl, rfl, hrun, htimer⟩
  | succ n ih =>
    rw [Function.iterate_succ_apply']
    rcases ih with hgoing | ⟨j, hj, hover⟩
    · rcases hgoing.tickAt with hgoing | hover
      · exact .inl hgoing
      · exact .inr ⟨n + 1, Nat.le_refl _, hover⟩
    · exact .inr ⟨j, Nat.le_succ_of_le hj, hover.tickAt⟩

end

/-- If no time passes, some ticks of a run leave the processor and the printout that as many plain steps leave
as lead to the first breakpoint or to a processor that does not run, or as there were ticks if nothing stops
the run before. Only its first instruction may stand at a breakpoint, and while the debugger is said to run,
the next one does not. -/
theorem ticks_stop_first {d : Debugger} {now : Instant} (hnow : d.timer.sinceLastPoll now.nanoseconds = 0)
    (hrun : d.processor.state = .running) {n : Nat} (hn : 1 ≤ n) :
    let e := (tickAt now)^[n] d.run
    ∃ j, FirstStop d.Stops n j ∧ (e.processor, e.printed) = d.plainly j ∧
      (∀ i, 1 ≤ i → i < j → d.breakpoints.contains (d.plainly i).1.pc = false) ∧
      (e.running = true → d.breakpoints.contains e.processor.pc = false) := by
  intro e
  have hfree {i : Nat} (hgo : ¬d.Stops i) : d.breakpoints.contains (d.plainly i).1.pc = false := by
    rw [Stops, not_or] at hgo
    exact Bool.eq_false_iff.mpr hgo.1
  rcases going_or_over hnow hrun n with hgoing | ⟨j, hj, hover⟩
  · refine ⟨n, ⟨hn, Nat.le_refl n, fun i hi hlt => hgoing.before i hi hlt.le, .inr rfl⟩, hgoing.reached,
      fun i hi hlt => hfree (hgoing.before i hi hlt.le), fun _ => ?_⟩
    have hlast := hfree (hgoing.before n hn (Nat.le_refl n))
    rwa [← hgoing.reached] at hlast
  · exact ⟨j, ⟨hover.pos, hj, hover.before, .inl hover.stops⟩, hover.reached,
      fun i hi hlt => hfree (hover.before i hi hlt), fun hrunning => (hover.idle hrunning).2⟩

/-- A breakpoint stands at the first instruction, and the third one raises a line whose handler is there. -/
def revisiting : Debugger :=
  (ofImage [0x82, 5, 1, 0x82, 0, 0, 0x52, 0, 0x01] Configuration.default).toggleBreakpoint

theorem revisiting_stops :
    revisiting.timer.sinceLastPoll 0 = 0 ∧ revisiting.processor.state = .running ∧
      revisiting.breakpoints.contains revisiting.processor.pc = true ∧
      (tick^[9] revisiting.run).processor = (revisiting.plainly 3).1 ∧
      (revisiting.plainly 3).1.pc = 0 ∧ (revisiting.plainly 3).1.interrupts.servicing = true := by
  have hnow : revisiting.timer.sinceLastPoll Instant.origin.nanoseconds = 0 := rfl
  have hrun : revisiting.processor.state = .running := rfl
  have hnine : 1 ≤ 9 := by decide
  obtain ⟨j, hfirst, hreached, -⟩ := ticks_stop_first hnow hrun hnine
  have hthree : FirstStop revisiting.Stops 9 3 := by
    refine ⟨by decide, by decide, fun i hi hlt => ?_, .inl (by decide)⟩
    obtain rfl | rfl : i = 1 ∨ i = 2 := by omega
    · decide
    · decide
  rw [hfirst.unique hthree] at hreached
  have hprocessor := congrArg Prod.fst hreached
  exact ⟨hnow, hrun, rfl, hprocessor, by decide, by decide⟩

end Debugger

end Microcomputer
