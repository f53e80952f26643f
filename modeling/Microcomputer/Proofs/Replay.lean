import Mathlib.Data.List.Induction
import Microcomputer.Debugger.Basic
import Microcomputer.Proofs.Dispatch
import Microcomputer.Proofs.Loading

/-!
What a reset of the debugger forgets, and what it keeps.

`Operation` is what can be done to a debugger, with the instant at which a step or a tick polls the timer. No
operation loses the image, the configuration or the timer's period, nor does one bring about cells without an
address: `On.perform`. That is all that a reset builds on, so that it leaves what a fresh debugger is
(`reset_of_on`), but for what the user has set and for the status line.

No operation reads the status line (`perform_withStatus`). So whatever is done after a reset comes to what it
comes to on a fresh debugger: `reset_replays`.
-/

namespace Microcomputer

namespace Processor

/-- No step reaches a cell without an address. -/
theorem surplus_step (p : Processor) : p.step.processor.memory.surplus = p.memory.surplus := by
  have hdone {i printed done} (h : p.Completes i printed done) :
      done.memory.surplus = p.memory.surplus := by
    obtain ⟨q, next, heffect, rfl⟩ := effect_of_completes h
    exact heffect.surplus
  have hstep := p.outcome_step
  generalize p.step = outcome at hstep
  cases hstep with
  | stopped | undecoded => rfl
  | failed run decode execute =>
    have hmemory := memory_of_failed execute
    exact congrArg Memory.surplus hmemory
  | idle completes =>
    have hkept := hdone completes
    exact hkept
  | unserved completes =>
    have hkept := hdone completes
    exact hkept
  | served completes =>
    have hkept := hdone completes
    exact (Memory.surplus_writeDown _ _ _).trans hkept

/-- Where every cell has its address, loading leaves the same on any processor. -/
theorem load_of_addressed {p : Processor} (h : p.memory.surplus = []) (image : List UInt8) :
    p.load image = powerOn.load image := by
  have hreset : p.reset = powerOn.reset := by
    unfold reset Memory.clear
    rw [h]
    rfl
  unfold load
  rw [hreset]

theorem surplus_powerOn_load (image : List UInt8) : (powerOn.load image).1.memory.surplus = [] := by
  unfold load
  split
  · next loaded hload =>
    unfold Memory.load at hload
    split at hload
    · cases hload
    · cases hload
      exact Memory.surplus_writeAll _ _ _
  · rfl

end Processor

namespace Debugger

/-- What can be done to a debugger. Steps and ticks poll the timer at an instant of their own. -/
inductive Operation
  | step (now : Instant)
  | run
  | tick (now : Instant)
  | toggleBreakpoint
  | press (key : UInt8)
  | scroll (rows : Int)
  | setInputMode (on : Bool)
  | raise (line : UInt8)
  | setRegister (r : Register) (v : UInt8)
  | setFlags (f : Flags)
  | setPc (v : UInt8)
  | write (a : UInt8) (bytes : List UInt8)
  | reset

def perform (d : Debugger) : Operation → Debugger
  | .step now => d.stepAt now
  | .run => d.run
  | .tick now => d.tickAt now
  | .toggleBreakpoint => d.toggleBreakpoint
  | .press key => d.press key
  | .scroll rows => d.scrollBy rows
  | .setInputMode on => { d with inputMode := on }
  | .raise line => { d with processor := d.processor.raise line }
  | .setRegister r v => { d with processor := d.processor.setRegister r v }
  | .setFlags f => { d with processor := d.processor.setFlags f }
  | .setPc v => { d with processor := d.processor.setPc v }
  | .write a bytes => { d with processor := d.processor.writeAll a bytes }
  | .reset => d.reset

def performAll (d : Debugger) (operations : List Operation) : Debugger := operations.foldl perform d

theorem performAll_append (d : Debugger) (operations : List Operation) (o : Operation) :
    d.performAll (operations ++ [o]) = (d.performAll operations).perform o := by
  rw [performAll, List.foldl_append]
  rfl

section

variable {d : Debugger} {image : List UInt8} {c : Configuration}

/-! ## What a reset builds on -/

/-- The debugger is on an image, under a configuration, and each cell of its memory has an address. -/
structure On (image : List UInt8) (c : Configuration) (d : Debugger) : Prop where
  image : d.image = image
  configuration : d.configuration = c
  surplus : d.processor.memory.surplus = []

theorem memory_pollTimer (d : Debugger) (now : Instant) :
    (d.pollTimer now).processor.memory = d.processor.memory := by
  show (d.processor.raiseTimer _).memory = _
  unfold Processor.raiseTimer
  split <;> rfl

theorem On.reset (h : d.On image c) : d.reset.On image c := by
  obtain ⟨himage, hconfiguration, hsurplus⟩ := h
  refine ⟨himage, hconfiguration, ?_⟩
  show (d.processor.load d.image).1.memory.surplus = []
  rw [Processor.load_of_addressed hsurplus]
  exact Processor.surplus_powerOn_load _

theorem on_ofImage (image : List UInt8) (c : Configuration) : (ofImage image c).On image c :=
  ⟨rfl, rfl, Processor.surplus_powerOn_load image⟩

theorem On.stepAt (h : d.On image c) (now : Instant) : (d.stepAt now).On image c := by
  obtain ⟨himage, hconfiguration, hsurplus⟩ := h
  have hkept : (d.pollTimer now).processor.step.processor.memory.surplus = [] := by
    rw [Processor.surplus_step, memory_pollTimer]
    exact hsurplus
  unfold Debugger.stepAt
  split
  · cases hresult : (d.pollTimer now).processor.step.result with
    | ok i =>
      simp only [hresult]
      exact ⟨himage, hconfiguration, hkept⟩
    | error f =>
      simp only [hresult]
      exact ⟨himage, hconfiguration, hkept⟩
  · exact ⟨himage, hconfiguration, hsurplus⟩

theorem On.tickAt (h : d.On image c) (now : Instant) : (d.tickAt now).On image c := by
  unfold Debugger.tickAt
  split
  · split
    · obtain ⟨himage, hconfiguration, hsurplus⟩ := h.stepAt now
      unfold checkBreakpoint
      split <;> exact ⟨himage, hconfiguration, hsurplus⟩
    · exact ⟨h.image, h.configuration, h.surplus⟩
  · exact h

theorem On.perform (h : d.On image c) (o : Operation) : (d.perform o).On image c := by
  cases o with
  | step now => exact h.stepAt now
  | tick now => exact h.tickAt now
  | reset => exact h.reset
  | write a bytes =>
    exact ⟨h.image, h.configuration, (Memory.surplus_writeAll _ _ _).trans h.surplus⟩
  | _ => exact ⟨h.image, h.configuration, h.surplus⟩

theorem on_performAll (image : List UInt8) (c : Configuration) (operations : List Operation) :
    ((ofImage image c).performAll operations).On image c := by
  induction operations using List.reverseRecOn with
  | nil => exact on_ofImage image c
  | append_singleton operations o ih =>
    rw [performAll_append]
    exact ih.perform o

/-- A reset leaves a fresh debugger, with the breakpoints, the input mode and the scroll position that it
finds and a status of its own. -/
theorem reset_of_on (h : d.On image c) :
    d.reset =
      { ofImage image c with
        breakpoints := d.breakpoints
        inputMode := d.inputMode
        scroll := d.scroll
        status := d.reset.status } := by
  obtain ⟨rfl, rfl, hsurplus⟩ := h
  have htimer : d.timer.reset = .ofPeriod d.configuration.timerPeriod := by
    rw [Timer.reset, d.periodic]
  unfold Debugger.reset ofImage
  simp only [Processor.load_of_addressed hsurplus, htimer]
  rfl

/-! ## What an operation reads -/

def withStatus (d : Debugger) (s : Status) : Debugger := { d with status := s }

theorem stepAt_withStatus (d : Debugger) (s : Status) (now : Instant) :
    (d.withStatus s).stepAt now = d.stepAt now := rfl

/-- An operation sets the status whatever it was, or leaves it. -/
theorem perform_withStatus (d : Debugger) (s : Status) (o : Operation) :
    (d.withStatus s).perform o = d.perform o ∨
      (d.withStatus s).perform o = (d.perform o).withStatus s ∧ (d.perform o).status = d.status := by
  cases o with
  | step now => exact .inl (stepAt_withStatus d s now)
  | run | toggleBreakpoint | press | reset => exact .inl rfl
  | scroll | setInputMode | raise | setRegister | setFlags | setPc | write => exact .inr ⟨rfl, rfl⟩
  | tick now =>
    show (if d.running then _ else d.withStatus s) = (if d.running then _ else d) ∨
      (if d.running then _ else d.withStatus s) = (if d.running then _ else d).withStatus s ∧
        (if d.running then _ else d).status = d.status
    by_cases hrunning : d.running
    · rw [if_pos hrunning, if_pos hrunning, stepAt_withStatus]
      exact .inl rfl
    · rw [if_neg hrunning, if_neg hrunning]
      exact .inr ⟨rfl, rfl⟩

/-- Two debuggers that differ in the status line come to the same, or each still shows the line that it
started with. -/
theorem performAll_withStatus (d : Debugger) (s : Status) (operations : List Operation) :
    (d.withStatus s).performAll operations = d.performAll operations ∨
      (d.withStatus s).performAll operations = (d.performAll operations).withStatus s ∧
        (d.performAll operations).status = d.status := by
  induction operations using List.reverseRecOn with
  | nil => exact .inr ⟨rfl, rfl⟩
  | append_singleton operations o ih =>
    rw [performAll_append, performAll_append]
    obtain hsame | ⟨hbut, hshown⟩ := ih
    · rw [hsame]
      exact .inl rfl
    · rw [hbut]
      obtain hsame | ⟨hbut, hkept⟩ := perform_withStatus (d.performAll operations) s o
      · exact .inl hsame
      · exact .inr ⟨hbut, hkept.trans hshown⟩

end

/-- A reset forgets whatever was done to a debugger. Processor, printout, timer and running flag become those
of a fresh debugger on the same image and configuration; breakpoints, input mode, scroll position, image and
configuration stay. Whatever is done afterwards comes to what it comes to on the fresh debugger, once that has
the same breakpoints, input mode and scroll position: in everything, or but for the status line, if each still
shows the one that it began with. -/
theorem reset_replays (image : List UInt8) (c : Configuration) (operations : List Operation) :
    let fresh := ofImage image c
    let d := fresh.performAll operations
    let alike :=
      { fresh with breakpoints := d.breakpoints, inputMode := d.inputMode, scroll := d.scroll }
    (d.reset.processor = fresh.processor ∧ d.reset.printed = fresh.printed ∧
        d.reset.timer = fresh.timer ∧ d.reset.running = fresh.running) ∧
      (d.reset.breakpoints = d.breakpoints ∧ d.reset.inputMode = d.inputMode ∧
        d.reset.scroll = d.scroll ∧ d.reset.image = d.image ∧
        d.reset.configuration = d.configuration) ∧
      ∀ later : List Operation,
        d.reset.performAll later = alike.performAll later ∨
          d.reset.performAll later = (alike.performAll later).withStatus d.reset.status ∧
            (alike.performAll later).status = .ready := by
  intro fresh d alike
  have hreset : d.reset = alike.withStatus d.reset.status :=
    reset_of_on (on_performAll image c operations)
  refine ⟨?_, ⟨rfl, rfl, rfl, rfl, rfl⟩, fun later => ?_⟩
  · rw [hreset]
    exact ⟨rfl, rfl, rfl, rfl⟩
  · have hlater := performAll_withStatus alike d.reset.status later
    rwa [← hreset] at hlater

end Debugger

end Microcomputer
