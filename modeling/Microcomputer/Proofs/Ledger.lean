import Microcomputer.Proofs.Fault

/-!
A ledger of interrupts: every raise that finds its line clear, every dispatch, and every return from a
handler, in the order in which they happen.

`Toggles` says that two kinds of entries alternate in a list, as the two ways of a switch do. A line's raises
and dispatches are such a switch, and its position is the line's pending bit; dispatches and returns are
another, and its position is the servicing flag. `interrupts_conserved` counts them.
-/

namespace Microcomputer

/-! ## Switches -/

section Toggles

variable {α : Type} (on off : α → Bool)

/-- Along the list a switch that stands at `b` is turned on only when it is off, turned off only when it is
on, and comes to stand at `c`. -/
def Toggles (b : Bool) (log : List α) (c : Bool) : Prop :=
  match log with
  | [] => b = c
  | s :: rest =>
    if on s then b = false ∧ Toggles true rest c
    else if off s then b = true ∧ Toggles false rest c
    else Toggles b rest c

variable {on off} {b c d : Bool} {log : List α}

theorem toggles_append {more : List α} :
    Toggles on off b (log ++ more) d ↔ ∃ c, Toggles on off b log c ∧ Toggles on off c more d := by
  induction log generalizing b with
  | nil => simp [Toggles]
  | cons s rest ih =>
    simp only [List.cons_append, Toggles]
    split
    · simp only [ih, and_assoc, exists_and_left]
    · split
      · simp only [ih, and_assoc, exists_and_left]
      · exact ih

/-- A switch is turned on as often as it is turned off, up to where it stood and stands. -/
theorem Toggles.count (hdisjoint : ∀ s, on s = true → off s = false) (h : Toggles on off b log c) :
    b.toNat + log.countP on = log.countP off + c.toNat := by
  induction log generalizing b with
  | nil =>
    obtain rfl : b = c := h
    simp
  | cons s rest ih =>
    simp only [Toggles] at h
    split at h
    · next hon =>
      obtain ⟨rfl, hrest⟩ := h
      have hcount := ih hrest
      simp only [List.countP_cons, hon, hdisjoint s hon, Bool.toNat_true, Bool.toNat_false] at hcount ⊢
      simp only [if_true, Bool.false_eq_true, if_false]
      omega
    · next hon =>
      split at h
      · next hoff =>
        obtain ⟨rfl, hrest⟩ := h
        have hcount := ih hrest
        simp only [List.countP_cons, hon, hoff, Bool.toNat_true, Bool.toNat_false] at hcount ⊢
        simp only [if_true, Bool.false_eq_true, if_false]
        omega
      · next hoff =>
        have hcount := ih h
        simp only [List.countP_cons, hon, hoff, Bool.false_eq_true, if_false]
        omega

/-- Wherever a switch is turned on, it was turned off as often as on before. -/
theorem Toggles.count_before {pre post : List α} {s : α} (hdisjoint : ∀ s, on s = true → off s = false)
    (h : Toggles on off b (pre ++ s :: post) c) (hs : on s = true) :
    b.toNat + pre.countP on = pre.countP off := by
  obtain ⟨mid, hpre, hpost⟩ := toggles_append.mp h
  simp only [Toggles, hs, if_true] at hpost
  have hcount := hpre.count hdisjoint
  rw [hpost.1] at hcount
  exact hcount

/-- A switch that goes from on to off was turned off. -/
theorem Toggles.exists_off (h : Toggles on off true log false) : ∃ s ∈ log, off s = true := by
  induction log with
  | nil => cases h
  | cons s rest ih =>
    simp only [Toggles] at h
    split at h
    · cases h.1
    · split at h
      · next hoff => exact ⟨s, List.mem_cons_self, hoff⟩
      · obtain ⟨t, ht, hoff⟩ := ih h
        exact ⟨t, List.mem_cons_of_mem _ ht, hoff⟩

/-- A switch that goes from off to on was turned on. -/
theorem Toggles.exists_on (h : Toggles on off false log true) : ∃ s ∈ log, on s = true := by
  induction log with
  | nil => cases h
  | cons s rest ih =>
    simp only [Toggles] at h
    split at h
    · next hon => exact ⟨s, List.mem_cons_self, hon⟩
    · split at h
      · cases h.1
      · obtain ⟨t, ht, hon⟩ := ih h
        exact ⟨t, List.mem_cons_of_mem _ ht, hon⟩

end Toggles

/-! ## Signals -/

/-- An entry of the ledger. -/
inductive Signal
  /-- A raise of the line that found it clear. -/
  | raised (line : UInt8)
  /-- The entry into the line's handler. -/
  | dispatched (line : UInt8)
  /-- A return that ended a handler. -/
  | returned
  deriving DecidableEq, Repr

namespace Signal

def isDispatch : Signal → Bool
  | dispatched _ => true
  | _ => false

theorem beq_returned_of_isDispatch (s : Signal) (h : s.isDispatch = true) : (s == .returned) = false := by
  cases s with
  | dispatched line => rfl
  | _ => cases h

end Signal

/-- A raise is entered if it finds its line clear. -/
def InterruptController.raiseSignals (c : InterruptController) (line : UInt8) : List Signal :=
  if c.isPending line then [] else [.raised (line % 8)]

theorem InterruptController.isPending_quiet (line : UInt8) : quiet.isPending line = false := by
  rw [isPending_eq]
  exact Nat.zero_testBit _

theorem InterruptController.servicing_quiet : quiet.servicing = false := rfl

namespace Processor

/-- What a completed instruction enters. -/
def instructionSignals (p : Processor) : Instruction Register → List Signal
  | .interrupt line => p.interrupts.raiseSignals (p.registers.get line)
  | .interruptReturn => if p.interrupts.servicing then [.returned] else []
  | _ => []

/-- What the boundary after an instruction enters: a dispatch, once the context has been saved. -/
def boundarySignals (done : Processor) : List Signal :=
  if done.state = .running then
    match done.interrupts.nextLine? done.registers.mask with
    | none => []
    | some line => if done.saveContext.2 = none then [.dispatched line] else []
  else []

/-- What a step enters: nothing, unless its instruction completes. -/
def stepSignals (p : Processor) : List Signal :=
  if p.state = .running then
    match p.memory.decodeAt p.pc with
    | .error _ => []
    | .ok i =>
      match p.execute i with
      | .failed _ _ => []
      | .completed q next _ => p.instructionSignals i ++ (q.retire i next).boundarySignals
  else []

def signals (p : Processor) : Event → List Signal
  | .step => p.stepSignals
  | .raise line => p.interrupts.raiseSignals line
  | .press _ line => p.interrupts.raiseSignals line

/-- The ledger of a run of events. -/
def ledger (p : Processor) : List Event → List Signal
  | [] => []
  | e :: rest => p.signals e ++ (p.after e).ledger rest

/-! ## Lines and handlers as switches -/

theorem stepSignals_of_completes {p done : Processor} {i : Instruction Register}
    {printed : Option Printed} (h : p.Completes i printed done) :
    p.stepSignals = p.instructionSignals i ++ done.boundarySignals := by
  obtain ⟨hrun, hdecode, q, next, hexec, rfl⟩ := h
  simp only [stepSignals, hrun, if_true, hdecode, hexec]

theorem boundarySignals_of_idle {p : Processor} (h : p.Idle) : p.boundarySignals = [] := by
  unfold boundarySignals
  split
  · next hrun =>
    rw [(p.interrupts.nextLine?_eq_none_iff _).mpr (h.resolve_left (not_not_intro hrun))]
  · rfl

theorem boundarySignals_of_room {p : Processor} {line : UInt8} (h : p.Serves line)
    (hroom : 10 ≤ p.stackRoom) : p.boundarySignals = [.dispatched line] := by
  obtain ⟨hrun, hserves⟩ := h
  simp only [boundarySignals, hrun, if_true, (p.interrupts.nextLine?_eq_some_iff _ _).mpr hserves,
    saveContext_of_room hroom]

theorem boundarySignals_of_full {p : Processor} {line : UInt8} (h : p.Serves line)
    (hroom : p.stackRoom < 10) : p.boundarySignals = [] := by
  obtain ⟨hrun, hserves⟩ := h
  simp [boundarySignals, hrun, (p.interrupts.nextLine?_eq_some_iff _ _).mpr hserves,
    saveContext_of_full hroom]

/-- The interrupt controller shows the position `view` of a switch that the ledger's entries turn. -/
structure Shows (on off : Signal → Bool) (view : InterruptController → Bool) : Prop where
  raise : ∀ c line, Toggles on off (view c) (c.raiseSignals line) (view (c.raise line))
  leave : ∀ c, Toggles on off (view c) (if c.servicing then [.returned] else []) (view c.leave)
  enter : ∀ c line, line.toNat < 8 → c.servicing = false → c.isPending line = true →
    Toggles on off (view c) [.dispatched line] (view (c.enter line))

section

variable {on off : Signal → Bool} {view : InterruptController → Bool}

theorem Shows.nil (c : InterruptController) : Toggles on off (view c) [] (view c) := rfl

theorem Shows.instruction (h : Shows on off view) (p : Processor) (i : Instruction Register) :
    Toggles on off (view p.interrupts) (p.instructionSignals i) (view (p.interruptsAfter i)) := by
  cases i with
  | interrupt line => exact h.raise _ _
  | interruptReturn => exact h.leave _
  | _ => exact Shows.nil _

theorem Shows.boundary (h : Shows on off view) (p : Processor) :
    Toggles on off (view p.interrupts) p.boundarySignals (view p.boundary.1.interrupts) := by
  rcases p.idle_or_serves with hidle | ⟨line, hserves⟩
  · rw [boundarySignals_of_idle hidle, boundary_of_idle hidle]
    exact Shows.nil _
  · rcases Nat.lt_or_ge p.stackRoom 10 with hroom | hroom
    · rw [boundarySignals_of_full hserves hroom, boundary_of_full hserves hroom]
      exact Shows.nil _
    · rw [boundarySignals_of_room hserves hroom, boundary_of_room hserves hroom]
      exact h.enter _ _ hserves.2.2.lt hserves.2.1 hserves.isPending

/-- What a step leaves of the interrupt lines is what the boundary leaves of them. -/
theorem interrupts_step {p done : Processor} {i : Instruction Register} {printed : Option Printed}
    (h : p.Completes i printed done) :
    p.step.processor.interrupts = done.boundary.1.interrupts := by
  rw [step_of_completes h]
  cases done.boundary with
  | mk q fault => cases fault <;> rfl

theorem Shows.step (h : Shows on off view) (p : Processor) :
    Toggles on off (view p.interrupts) p.stepSignals (view p.step.processor.interrupts) := by
  by_cases hrun : p.state = .running
  · rcases step_cases hrun with ⟨e, he⟩ | ⟨i, q, f, hi, hf⟩ | ⟨i, printed, done, hdone⟩
    · simp only [stepSignals, hrun, if_true, he, step_of_decodeError hrun he]
      exact Shows.nil _
    · simp only [stepSignals, hrun, if_true, hi, hf, step_of_failed hrun hi hf]
      show Toggles on off _ [] (view q.interrupts)
      rw [interrupts_of_failed hf]
      exact Shows.nil _
    · rw [stepSignals_of_completes hdone, interrupts_step hdone]
      obtain ⟨q, next, heffect, rfl⟩ := effect_of_completes hdone
      refine toggles_append.mpr ⟨_, h.instruction p i, ?_⟩
      rw [← heffect.interrupts]
      exact h.boundary (q.retire i next)
  · simp only [stepSignals, hrun, if_false, step_of_not_running hrun]
    exact Shows.nil _

theorem Shows.event (h : Shows on off view) (p : Processor) (e : Event) :
    Toggles on off (view p.interrupts) (p.signals e) (view (p.after e).interrupts) := by
  cases e with
  | step => exact h.step p
  | raise line => exact h.raise _ _
  | press key line => exact h.raise _ _

theorem Shows.ledger (h : Shows on off view) (p : Processor) (events : List Event) :
    Toggles on off (view p.interrupts) (p.ledger events) (view (p.afterAll events).interrupts) := by
  induction events generalizing p with
  | nil => exact Shows.nil _
  | cons e rest ih => exact toggles_append.mpr ⟨_, h.event p e, ih _⟩

end

/-- A line's pending bit: raises turn it on, dispatches turn it off. -/
theorem shows_pending {line : UInt8} (hline : line.toNat < 8) :
    Shows (· == .raised line) (· == .dispatched line) (·.isPending line) := by
  have hmod := InterruptController.mod_eight_of_lt hline
  constructor
  · intro c l
    rw [InterruptController.isPending_raise, hmod, InterruptController.raiseSignals]
    by_cases hl : l % 8 = line
    · rw [c.isPending_congr (hl.trans hmod.symm)]
      cases c.isPending line <;> simp [Toggles, hl]
    · cases c.isPending l <;> simp [Toggles, hl]
  · intro c
    have hsame : c.leave.isPending line = c.isPending line := rfl
    rw [hsame]
    cases c.servicing <;> simp [Toggles]
  · intro c l hl _ hpending
    rw [InterruptController.isPending_enter, hmod, InterruptController.mod_eight_of_lt hl]
    by_cases h : l = line
    · subst h
      simp [Toggles, hpending]
    · simp [Toggles, h]

/-- The servicing flag: dispatches turn it on, returns turn it off. -/
theorem shows_servicing : Shows Signal.isDispatch (· == .returned) (·.servicing) := by
  constructor
  · intro c l
    rw [InterruptController.raiseSignals]
    cases c.isPending l <;> simp [Toggles, Signal.isDispatch]
  · intro c
    cases c.servicing <;> simp [Toggles, Signal.isDispatch, InterruptController.leave]
  · intro c l _ hclear _
    simp [Toggles, Signal.isDispatch, hclear, InterruptController.enter]

/-! ## The ledger of a run -/

theorem not_dispatched_mem_instructionSignals (p : Processor) (i : Instruction Register) (line : UInt8) :
    .dispatched line ∉ p.instructionSignals i := by
  cases i with
  | interrupt r =>
    simp only [instructionSignals, InterruptController.raiseSignals]
    split <;> simp
  | interruptReturn =>
    simp only [instructionSignals]
    split <;> simp
  | _ => exact List.not_mem_nil

/-- A boundary enters the dispatch of the line that is served, if its context finds room. -/
theorem dispatched_mem_boundarySignals {p : Processor} {line : UInt8}
    (h : .dispatched line ∈ p.boundarySignals) : p.Serves line ∧ 10 ≤ p.stackRoom := by
  rcases p.idle_or_serves with hidle | ⟨served, hserves⟩
  · rw [boundarySignals_of_idle hidle] at h
    cases h
  · rcases Nat.lt_or_ge p.stackRoom 10 with hroom | hroom
    · rw [boundarySignals_of_full hserves hroom] at h
      cases h
    · rw [boundarySignals_of_room hserves hroom, List.mem_singleton] at h
      cases h
      exact ⟨hserves, hroom⟩

/-- A step enters a dispatch exactly when it serves the line: no handler runs when its instruction has
completed, and the context finds room. -/
theorem dispatched_mem_stepSignals_iff (p : Processor) (line : UInt8) :
    .dispatched line ∈ p.stepSignals ↔
      ∃ i printed done, p.Completes i printed done ∧ done.Serves line ∧ 10 ≤ done.stackRoom := by
  constructor
  · intro h
    by_cases hrun : p.state = .running
    · rcases step_cases hrun with ⟨e, he⟩ | ⟨i, q, f, hi, hf⟩ | ⟨i, printed, done, hdone⟩
      · simp only [stepSignals, hrun, if_true, he, List.not_mem_nil] at h
      · simp only [stepSignals, hrun, if_true, hi, hf, List.not_mem_nil] at h
      · rw [stepSignals_of_completes hdone, List.mem_append] at h
        have hboundary := h.resolve_left (p.not_dispatched_mem_instructionSignals i line)
        exact ⟨i, printed, done, hdone, dispatched_mem_boundarySignals hboundary⟩
    · simp only [stepSignals, hrun, if_false, List.not_mem_nil] at h
  · rintro ⟨i, printed, done, hdone, hserves, hroom⟩
    rw [stepSignals_of_completes hdone, boundarySignals_of_room hserves hroom]
    simp

/-- No instruction clears a pending bit. -/
theorem isPending_interruptsAfter {p : Processor} {line : UInt8} (i : Instruction Register)
    (h : p.interrupts.isPending line = true) : (p.interruptsAfter i).isPending line = true := by
  cases i with
  | interrupt r =>
    show (p.interrupts.raise (p.registers.get r)).isPending line = true
    rw [InterruptController.isPending_raise, h, Bool.true_or]
  | _ => exact h

/-- A step that fails clears no pending bit, also when it is the dispatch that fails. -/
theorem isPending_step_of_error {p : Processor} {f : Fault} {line : UInt8}
    (hfault : p.step.result = .error f) (h : p.interrupts.isPending line = true) :
    p.step.processor.interrupts.isPending line = true := by
  by_cases hrun : p.state = .running
  · rcases step_cases hrun with ⟨e, he⟩ | ⟨i, q, g, hi, hg⟩ | ⟨i, printed, done, hdone⟩
    · rw [step_of_decodeError hrun he]
      exact h
    · rw [step_of_failed hrun hi hg]
      show q.interrupts.isPending line = true
      rw [interrupts_of_failed hg]
      exact h
    · obtain ⟨-, -, hstep⟩ := step_error_of_completes hdone hfault
      obtain ⟨q, next, heffect, rfl⟩ := effect_of_completes hdone
      rw [hstep]
      show q.interrupts.isPending line = true
      rw [heffect.interrupts]
      exact isPending_interruptsAfter i h
  · rw [step_of_not_running hrun]
    exact h

theorem interrupts_load (p : Processor) (image : List UInt8) :
    (p.load image).1.interrupts = .quiet := by
  unfold load
  split <;> rfl

section

variable {p : Processor}

/-- From quiet lines on, a line was raised while clear as often as it was dispatched, and once more if it is
pending. -/
theorem count_raised_ledger (hquiet : p.interrupts = .quiet) (events : List Event) {line : UInt8}
    (hline : line.toNat < 8) :
    (p.ledger events).count (.raised line) = (p.ledger events).count (.dispatched line) +
      ((p.afterAll events).interrupts.isPending line).toNat := by
  have htoggles := (shows_pending hline).ledger p events
  rw [hquiet, InterruptController.isPending_quiet] at htoggles
  have hcount := htoggles.count (by
    intro s hs
    cases s <;> simp_all)
  rw [Bool.toNat_false, Nat.zero_add] at hcount
  exact hcount

/-- From quiet lines on, handlers were entered as often as they returned, and once more if one runs. -/
theorem countP_dispatch_ledger (hquiet : p.interrupts = .quiet) (events : List Event) :
    (p.ledger events).countP Signal.isDispatch =
      (p.ledger events).count .returned + (p.afterAll events).interrupts.servicing.toNat := by
  have htoggles := shows_servicing.ledger p events
  rw [hquiet] at htoggles
  have hcount := htoggles.count Signal.beq_returned_of_isDispatch
  rw [InterruptController.servicing_quiet, Bool.toNat_false, Nat.zero_add] at hcount
  exact hcount

/-- Before each dispatch all handlers had returned. -/
theorem countP_dispatch_before (hquiet : p.interrupts = .quiet) {events : List Event}
    {pre post : List Signal} {line : UInt8} (hsplit : p.ledger events = pre ++ .dispatched line :: post) :
    pre.countP Signal.isDispatch = pre.count .returned := by
  have htoggles := shows_servicing.ledger p events
  rw [hquiet, hsplit] at htoggles
  have hcount := htoggles.count_before Signal.beq_returned_of_isDispatch rfl
  rw [InterruptController.servicing_quiet, Bool.toNat_false, Nat.zero_add] at hcount
  exact hcount

/-- Only its own dispatch clears a line's pending bit. -/
theorem dispatched_of_cleared {e : Event} {line : UInt8} (hline : line.toNat < 8)
    (hbefore : p.interrupts.isPending line = true)
    (hafter : (p.after e).interrupts.isPending line = false) : .dispatched line ∈ p.signals e := by
  have htoggles := (shows_pending hline).event p e
  rw [hbefore, hafter] at htoggles
  obtain ⟨s, hs, hoff⟩ := htoggles.exists_off
  obtain rfl : s = .dispatched line := eq_of_beq hoff
  exact hs

/-- From power-on or from a load on, whatever happens: each line was raised while clear as often as it was
dispatched, and once more if it is pending; handlers were entered as often as they returned, and once more
if one runs, so that none was entered while another ran; and nothing but its own dispatch clears a pending
bit, least of all a step that fails. -/
theorem interrupts_conserved (hp : p = powerOn ∨ ∃ q image, p = (load q image).1) (events : List Event) :
    (∀ line : UInt8, line.toNat < 8 →
      (p.ledger events).count (.raised line) = (p.ledger events).count (.dispatched line) +
        ((p.afterAll events).interrupts.isPending line).toNat) ∧
    (p.ledger events).countP Signal.isDispatch =
      (p.ledger events).count .returned + (p.afterAll events).interrupts.servicing.toNat ∧
    (∀ pre line post, p.ledger events = pre ++ .dispatched line :: post →
      pre.countP Signal.isDispatch = pre.count .returned) ∧
    (∀ e (line : UInt8), line.toNat < 8 → (p.afterAll events).interrupts.isPending line = true →
      ((p.afterAll events).after e).interrupts.isPending line = false →
        .dispatched line ∈ (p.afterAll events).signals e) ∧
    ∀ f line, (p.afterAll events).step.result = .error f →
      (p.afterAll events).interrupts.isPending line = true →
        (p.afterAll events).step.processor.interrupts.isPending line = true := by
  have hquiet : p.interrupts = .quiet := by
    rcases hp with rfl | ⟨q, image, rfl⟩
    · rfl
    · exact interrupts_load q image
  refine ⟨?_, countP_dispatch_ledger hquiet events, ?_, ?_, ?_⟩
  · intro line hline
    exact count_raised_ledger hquiet events hline
  · intro pre line post hsplit
    exact countP_dispatch_before hquiet hsplit
  · intro e line hline hbefore hafter
    exact dispatched_of_cleared hline hbefore hafter
  · intro f line hfault h
    exact isPending_step_of_error hfault h

end

/-- Unmasks all lines and raises line 3, whose handler is the image itself. -/
def raising : Processor := (powerOn.load [0x82, 5, 0xFF, 0x82, 0, 11, 0x52, 0]).1

/-- Line 3 is served, and while its handler runs it is raised twice more. -/
def raises : List Event := [.step, .step, .step, .raise 3, .press 65 3, .step]

theorem raising_conserved :
    (raising.ledger raises).count (.raised 3) = 2 ∧ (raising.ledger raises).count (.dispatched 3) = 1 ∧
      (raising.afterAll raises).interrupts.isPending 3 = true := by
  have hcount := (interrupts_conserved (p := raising) (.inr ⟨_, _, rfl⟩) raises).1 3 (by decide)
  have hraised : (raising.ledger raises).count (.raised 3) = 2 := rfl
  have hpending : (raising.afterAll raises).interrupts.isPending 3 = true := rfl
  rw [hraised, hpending] at hcount
  refine ⟨hraised, ?_, hpending⟩
  simpa using hcount.symm

end Processor

end Microcomputer
