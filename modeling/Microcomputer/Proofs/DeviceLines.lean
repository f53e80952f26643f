import Microcomputer.Proofs.Ledger
import Microcomputer.Proofs.Limits

/-!
Which interrupt lines the devices of a machine raise, and how often a line is served.

* `count_dispatched_ledger_le`: a line is served no more often than devices raise it and interrupt
  instructions ask for it, lines being taken modulo eight.
* `went_performAll`: whatever a machine does, its devices raise the timer's line once for each firing of the
  timer and the keyboard's line once for each key.
* `timer_owns_line_zero` puts this together for configurations that are accepted, whose keyboard line is not
  the timer's.
-/

namespace Microcomputer

namespace Processor

namespace Event

/-- The line that a device raises. -/
def line? : Event → Option UInt8
  | step => none
  | raise line | press _ line => some (line % 8)

def isPress : Event → Bool
  | press .. => true
  | _ => false

/-- The event sets the pending bit of this line and leaves the other seven as they are. -/
def RaisesOnly (e : Event) (line : UInt8) : Prop :=
  ∀ (p : Processor) (l : UInt8), l.toNat < 8 →
    (p.after e).interrupts.isPending l = (p.interrupts.isPending l || decide (l = line))

end Event

/-- The line that an event asks for, if it is a step that executes an interrupt instruction. -/
def request? (p : Processor) : Event → Option UInt8
  | .step =>
    if p.state = .running then
      match p.memory.decodeAt p.pc with
      | .ok (.interrupt line) => some (p.registers.get line % 8)
      | _ => none
    else none
  | _ => none

/-- The lines that interrupt instructions ask for along a run of events. -/
def requests (p : Processor) : List Event → List UInt8
  | [] => []
  | e :: rest => (p.request? e).toList ++ (p.after e).requests rest

section

variable {p : Processor} {e : Event} {line : UInt8}

theorem Event.raisesOnly_of_line? (h : e.line? = some line) : e.RaisesOnly line := by
  have hraise (c : InterruptController) (raised l : UInt8) (hl : l.toNat < 8)
      (hraised : raised % 8 = line) :
      (c.raise raised).isPending l = (c.isPending l || decide (l = line)) := by
    rw [InterruptController.isPending_raise, hraised, InterruptController.mod_eight_of_lt hl]
    simp only [eq_comm]
  intro p l hl
  cases e with
  | step => cases h
  | raise raised => exact hraise p.interrupts raised l hl (Option.some.inj h)
  | press key raised => exact hraise p.interrupts raised l hl (Option.some.inj h)

/-! ## Raises and what asks for them -/

theorem not_raised_mem_boundarySignals (p : Processor) (line : UInt8) :
    .raised line ∉ p.boundarySignals := by
  rcases p.idle_or_serves with hidle | ⟨served, hserves⟩
  · rw [boundarySignals_of_idle hidle]
    exact List.not_mem_nil
  · rcases Nat.lt_or_ge p.stackRoom 10 with hroom | hroom
    · rw [boundarySignals_of_full hserves hroom]
      exact List.not_mem_nil
    · rw [boundarySignals_of_room hserves hroom]
      simp

theorem count_raiseSignals_le (c : InterruptController) (raised line : UInt8) :
    (c.raiseSignals raised).count (.raised line) ≤ [raised % 8].count line := by
  unfold InterruptController.raiseSignals
  split
  · exact Nat.zero_le _
  · simp [List.count_singleton]

/-- A step raises a line only if its instruction asks for it. -/
theorem count_raised_stepSignals_le (p : Processor) (line : UInt8) :
    p.stepSignals.count (.raised line) ≤ (p.request? .step).toList.count line := by
  by_cases hrun : p.state = .running
  · rcases step_cases hrun with ⟨e, he⟩ | ⟨i, q, f, hi, hf⟩ | ⟨i, printed, done, hdone⟩
    · simp only [stepSignals, hrun, if_true, he, List.count_nil, Nat.zero_le]
    · simp only [stepSignals, hrun, if_true, hi, hf, List.count_nil, Nat.zero_le]
    · have hboundary : done.boundarySignals.count (.raised line) = 0 :=
        List.count_eq_zero.mpr (done.not_raised_mem_boundarySignals line)
      rw [stepSignals_of_completes hdone, List.count_append, hboundary, Nat.add_zero]
      obtain ⟨-, hdecode, -⟩ := hdone
      cases i with
      | interrupt r =>
        simp only [request?, hrun, if_true, hdecode]
        exact count_raiseSignals_le _ _ _
      | interruptReturn =>
        simp only [instructionSignals]
        split <;> simp
      | _ => exact Nat.zero_le _
  · simp only [stepSignals, hrun, if_false, List.count_nil, Nat.zero_le]

/-- What raises a line asks for it, be it a device or an instruction. -/
theorem count_raised_signals_le (p : Processor) (e : Event) (line : UInt8) :
    (p.signals e).count (.raised line) ≤ e.line?.toList.count line + (p.request? e).toList.count line := by
  cases e with
  | step => exact (p.count_raised_stepSignals_le line).trans (Nat.le_add_left _ _)
  | raise raised => exact count_raiseSignals_le _ _ _
  | press key raised => exact count_raiseSignals_le _ _ _

theorem count_raised_ledger_le (p : Processor) (events : List Event) (line : UInt8) :
    (p.ledger events).count (.raised line) ≤
      (events.filterMap Event.line?).count line + (p.requests events).count line := by
  induction events generalizing p with
  | nil => exact Nat.zero_le _
  | cons e rest ih =>
    have hevent := p.count_raised_signals_le e line
    have hrest := ih (p.after e)
    have hlines : ((e :: rest).filterMap Event.line?).count line =
        e.line?.toList.count line + (rest.filterMap Event.line?).count line := by
      cases h : e.line? <;> simp [h, List.count_cons, Nat.add_comm]
    rw [ledger, requests, List.count_append, List.count_append, hlines]
    omega

/-- From quiet lines on, a line is served no more often than it is asked for. -/
theorem count_dispatched_ledger_le (hquiet : p.interrupts = .quiet) (events : List Event)
    (hline : line.toNat < 8) :
    (p.ledger events).count (.dispatched line) ≤
      (events.filterMap Event.line?).count line + (p.requests events).count line := by
  have hraised := count_raised_ledger hquiet events hline
  have hasked := p.count_raised_ledger_le events line
  omega

/-- Whatever sets a line's pending bit raises the line. -/
theorem raised_of_set (hline : line.toNat < 8) (hbefore : p.interrupts.isPending line = false)
    (hafter : (p.after e).interrupts.isPending line = true) : .raised line ∈ p.signals e := by
  have htoggles := (shows_pending hline).event p e
  rw [hbefore, hafter] at htoggles
  obtain ⟨s, hs, hon⟩ := htoggles.exists_on
  obtain rfl : s = .raised line := eq_of_beq hon
  exact hs

theorem line?_or_request?_of_raised (h : .raised line ∈ p.signals e) :
    e.line? = some line ∨ p.request? e = some line := by
  have hcount := List.count_pos_iff.mpr h
  have hle := p.count_raised_signals_le e line
  have hmem : line ∈ e.line?.toList ∨ line ∈ (p.request? e).toList := by
    by_contra hnone
    obtain ⟨hdevice, hinstruction⟩ := not_or.mp hnone
    rw [List.count_eq_zero.mpr hdevice, List.count_eq_zero.mpr hinstruction] at hle
    omega
  rwa [Option.mem_toList, Option.mem_toList] at hmem

end

end Processor

namespace Machine

open Processor (Event)

/-! ## What a machine does to its processor -/

def timerEvents (fired : Bool) : List Event := if fired then [.raise timerLine] else []

def keyEvents (m : Machine) : List Event :=
  (m.keyboard.poll.1.map fun key => .press key m.configuration.keyboardLine).toList

def pollEvents (m : Machine) (now : Instant) : List Event :=
  timerEvents (m.timer.poll now.nanoseconds).1 ++ m.keyEvents

def stepEvents (clock : Clock) (m : Machine) : List Event :=
  m.pollEvents (clock m.processor.cycles) ++ [.step]

/-- The events of at most `n` steps, ended early by a halt or a fault. -/
def runEvents (clock : Clock) (n : Nat) (m : Machine) : List Event :=
  match n with
  | 0 => []
  | n + 1 =>
    if m.processor.state = .running then
      match m.stepBy clock with
      | (next, .ok _) => m.stepEvents clock ++ next.runEvents clock n
      | (_, .error _) => m.stepEvents clock
    else []

/-- What a machine may be made to do once an image is loaded. Steps and runs poll the devices by a clock of
their own, and a run is one that is over after `n` steps. Another keyboard may be attached ahead of any
action. -/
inductive Action
  | step (clock : Clock)
  | advance (span : Nat)
  | poll (now : Instant)
  | run (clock : Clock) (n : Nat)
  | attach (keyboard : Keyboard)

/-- The machine after an action. Time that the timer cannot hold does not pass, and a run that is aborted leaves
the machine as it is. -/
def perform (m : Machine) : Action → Machine
  | .step clock => (m.stepBy clock).1
  | .advance span => (m.advanceTimer? span).getD m
  | .poll now => m.pollDevices now
  | .run clock _ =>
    match m.runWith? (fun seen _ => seen) clock () with
    | some (last, _) => last
    | none => m
  | .attach keyboard => { m with keyboard }

def events (m : Machine) : Action → List Event
  | .step clock => m.stepEvents clock
  | .advance span => if m.timer.Holds span then timerEvents (m.timer.advance span).1 else []
  | .poll now => m.pollEvents now
  | .run clock n => m.runEvents clock n
  | .attach _ => []

/-- The action is over at some time, as all are but a run that goes on forever. -/
def Finishes (m : Machine) : Action → Prop
  | .run clock n => m.EndsAfter clock n
  | _ => True

def performAll (m : Machine) (actions : List Action) : Machine := actions.foldl perform m

/-- All that happens to the processor along the actions. -/
def eventsAll (m : Machine) : List Action → List Event
  | [] => []
  | a :: rest => m.events a ++ (m.perform a).eventsAll rest

def FinishesAll (m : Machine) : List Action → Prop
  | [] => True
  | a :: rest => m.Finishes a ∧ (m.perform a).FinishesAll rest

/-- From one machine to the other these events happen to the processor. Apart from steps they are raises of
the timer's line, one for each firing, and presses that raise the keyboard's line, one for each key. Both are
counted in 64 bits. -/
structure Went (m : Machine) (events : List Event) (last : Machine) : Prop where
  processor : last.processor = m.processor.afterAll events
  configuration : last.configuration = m.configuration
  own : ∀ e ∈ events,
    e = .step ∨ e = .raise timerLine ∨ ∃ key, e = .press key m.configuration.keyboardLine
  firings : last.timer.ticks = m.timer.ticks + .ofNat (events.count (.raise timerLine))
  keys : last.keysDelivered = m.keysDelivered + .ofNat (events.countP Event.isPress)

section

variable {m next last : Machine} {events more : List Event} {clock : Clock} {i : Instruction Register}
  {f : Fault}

theorem Went.nil (m : Machine) : m.Went [] m :=
  ⟨rfl, rfl, List.forall_mem_nil _, (UInt64.add_zero _).symm, (UInt64.add_zero _).symm⟩

theorem Went.append (h : m.Went events next) (hmore : next.Went more last) :
    m.Went (events ++ more) last where
  processor := by rw [hmore.processor, h.processor, Processor.afterAll, Processor.afterAll,
    Processor.afterAll, List.foldl_append]
  configuration := hmore.configuration.trans h.configuration
  own := List.forall_mem_append.mpr ⟨h.own, h.configuration ▸ hmore.own⟩
  firings := by rw [hmore.firings, h.firings, List.count_append, UInt64.ofNat_add, UInt64.add_assoc]
  keys := by rw [hmore.keys, h.keys, List.countP_append, UInt64.ofNat_add, UInt64.add_assoc]

theorem went_afterTimer (m : Machine) {fired : Bool} {timer : Timer} (h : timer.period = m.timer.period)
    (hticks : timer.ticks = m.timer.ticks + fired.toUInt64) :
    m.Went (timerEvents fired) (m.afterTimer fired timer h) := by
  cases fired with
  | false => exact ⟨rfl, rfl, List.forall_mem_nil _, hticks, (UInt64.add_zero _).symm⟩
  | true =>
    exact ⟨rfl, rfl, List.forall_mem_singleton.mpr (.inr (.inl rfl)), hticks, (UInt64.add_zero _).symm⟩

theorem went_pollKeyboard (m : Machine) : m.Went m.keyEvents m.pollKeyboard := by
  unfold keyEvents pollKeyboard
  rcases m.keyboard.poll with ⟨_ | key, keyboard⟩
  · exact ⟨rfl, rfl, List.forall_mem_nil _, (UInt64.add_zero _).symm, (UInt64.add_zero _).symm⟩
  · exact ⟨rfl, rfl, List.forall_mem_singleton.mpr (.inr (.inr ⟨key, rfl⟩)), (UInt64.add_zero _).symm, rfl⟩

theorem went_pollDevices (m : Machine) (now : Instant) :
    m.Went (m.pollEvents now) (m.pollDevices now) := by
  have hticks : (m.timer.poll now.nanoseconds).2.ticks =
      m.timer.ticks + (m.timer.poll now.nanoseconds).1.toUInt64 := Timer.ticks_advance _ _
  exact (m.went_afterTimer (Timer.period_poll _ _) hticks).append (went_pollKeyboard _)

theorem went_stepBy (clock : Clock) (m : Machine) : m.Went (m.stepEvents clock) (m.stepBy clock).1 :=
  (m.went_pollDevices _).append
    ⟨rfl, rfl, List.forall_mem_singleton.mpr (.inl rfl), (UInt64.add_zero _).symm,
      (UInt64.add_zero _).symm⟩

theorem runEvents_of_ok (hrun : m.processor.state = .running) (h : (m.stepBy clock).2 = .ok i) (n : Nat) :
    m.runEvents clock (n + 1) = m.stepEvents clock ++ (m.stepBy clock).1.runEvents clock n := by
  have hstep : m.stepBy clock = ((m.stepBy clock).1, .ok i) := Prod.ext rfl h
  rw [runEvents, if_pos hrun, hstep]

theorem runEvents_of_error (hrun : m.processor.state = .running) (h : (m.stepBy clock).2 = .error f)
    (n : Nat) : m.runEvents clock (n + 1) = m.stepEvents clock := by
  have hstep : m.stepBy clock = ((m.stepBy clock).1, .error f) := Prod.ext rfl h
  rw [runEvents, if_pos hrun, hstep]

theorem runEvents_of_not_running (h : m.processor.state ≠ .running) (n : Nat) :
    m.runEvents clock n = [] := by
  cases n with
  | zero => rfl
  | succ n => rw [runEvents, if_neg h]

theorem went_runFor {σ : Type} (look : σ → Processor → σ) (clock : Clock) (n : Nat) (m : Machine)
    (seen : σ) : m.Went (m.runEvents clock n) (runFor look clock n m seen).1 := by
  induction n generalizing m seen with
  | zero => exact .nil m
  | succ n ih =>
    by_cases hrun : m.processor.state = .running
    · have hstep := went_stepBy clock m
      cases hresult : (m.stepBy clock).2 with
      | ok i =>
        rw [runFor_of_ok hrun hresult, runEvents_of_ok hrun hresult]
        exact hstep.append (ih _ _)
      | error f =>
        -- A step that faults ends the run, but its poll has taken place.
        rw [runFor_of_error hrun hresult, runEvents_of_error hrun hresult]
        exact hstep
    · rw [runFor_of_not_running hrun, runEvents_of_not_running hrun]
      exact .nil m

theorem went_perform {a : Action} (h : m.Finishes a) : m.Went (m.events a) (m.perform a) := by
  cases a with
  | step clock => exact went_stepBy clock m
  | advance span =>
    by_cases hholds : m.timer.Holds span
    · simp only [events, perform, advanceTimer?, if_pos hholds, Option.getD_some]
      exact m.went_afterTimer _ (Timer.ticks_advance _ _)
    · simp only [events, perform, advanceTimer?, if_neg hholds, Option.getD_none]
      exact .nil m
  | poll now => exact m.went_pollDevices now
  | run clock n =>
    simp only [events, perform]
    by_cases hfits : m.limit? = none
    · -- A run that is aborted is over before its first step.
      have hends : m.EndsAfter clock n := h
      rw [EndsAfter, hfits] at hends
      obtain rfl : n = 0 := hends
      rw [(runWith?_eq_none_iff m _ clock ()).mpr hfits]
      exact .nil m
    · rw [runWith?_of_endsAfter h hfits]
      exact went_runFor _ clock n m ()
  | attach keyboard =>
    exact ⟨rfl, rfl, List.forall_mem_nil _, (UInt64.add_zero _).symm, (UInt64.add_zero _).symm⟩

/-- Whatever a machine does, its devices raise no lines but their own, and those as often as they fire and
yield keys. -/
theorem went_performAll {actions : List Action} (h : m.FinishesAll actions) :
    m.Went (m.eventsAll actions) (m.performAll actions) := by
  induction actions generalizing m with
  | nil => exact .nil m
  | cons a rest ih => exact (went_perform h.1).append (ih h.2)

/-! ## The lines of the devices -/

/-- A keyboard line is a line, and not the timer's. -/
theorem line_of_isKeyboardLine {line : UInt8} (h : Configuration.IsKeyboardLine line) :
    1 ≤ line.toNat ∧ line.toNat ≤ 7 ∧ line % 8 = line ∧ line ≠ timerLine := by
  have hone : 1 ≤ line.toNat := UInt8.le_iff_toNat_le.mp h.1
  have hseven : line.toNat ≤ 7 := UInt8.le_iff_toNat_le.mp h.2
  refine ⟨hone, hseven, InterruptController.mod_eight_of_lt (Nat.lt_succ_of_le hseven), ?_⟩
  rintro rfl
  cases hone

variable (hline : Configuration.IsKeyboardLine m.configuration.keyboardLine)

include hline

/-- With a keyboard line of its own, the events that raise either line are the firings and the keys. -/
theorem Went.count_lines (h : m.Went events last) :
    (events.filterMap Event.line?).count timerLine = events.count (.raise timerLine) ∧
      (events.filterMap Event.line?).count m.configuration.keyboardLine =
        events.countP Event.isPress := by
  obtain ⟨-, -, hmod, hne⟩ := line_of_isKeyboardLine hline
  have htimer : timerLine % 8 = timerLine := rfl
  -- Each event is a step, a firing or a press, and the three raise no line, line 0 and the other line.
  rw [List.count_filterMap, List.count_filterMap]
  refine ⟨List.countP_congr fun e he => ?_, List.countP_congr fun e he => ?_⟩
  · rcases h.own e he with rfl | rfl | ⟨key, rfl⟩
    · decide
    · decide
    · simp [Event.line?, hmod, hne]
  · rcases h.own e he with rfl | rfl | ⟨key, rfl⟩
    · simp [Event.line?, Event.isPress]
    · simp [Event.line?, Event.isPress, htimer, hne.symm]
    · simp [Event.line?, Event.isPress, hmod]

/-- The timer's line is raised by a firing or by an instruction that asks for it. -/
theorem Went.timerLine_raised (h : m.Went events last) {p : Processor} {e : Event} (he : e ∈ events)
    (hraised : .raised timerLine ∈ p.signals e) :
    e = .raise timerLine ∨ (e = .step ∧ p.request? e = some timerLine) := by
  obtain ⟨-, -, hmod, hne⟩ := line_of_isKeyboardLine hline
  have hasked := Processor.line?_or_request?_of_raised hraised
  rcases h.own e he with rfl | rfl | ⟨key, rfl⟩
  · exact .inr ⟨rfl, hasked.resolve_left nofun⟩
  · exact .inl rfl
  · have hpressed := hasked.resolve_right nofun
    rw [Event.line?, Option.some.injEq, hmod] at hpressed
    exact absurd hpressed hne

end

/-- Line 0 belongs to the timer. Under a configuration that was accepted, on any image and with any keyboard,
whatever the machine is made to do: apart from steps, all that happens to the processor is that the timer
fires, which raises line 0 only, and that a key arrives, which raises the keyboard's line only, and that is
one of 1 to 7. So only a firing or an interrupt instruction that asks for line 0 sets its bit, and neither
line is served more often than its device and the interrupt instructions ask for it. The machine's two counters
count the firings and the keys, in 64 bits. -/
theorem timer_owns_line_zero {text : String} {c : Configuration} (hc : Configuration.ofText text = .ok c)
    (keyboard : Keyboard) (image : List UInt8) {actions : List Action}
    (hends : ((ofConfiguration c keyboard).load image).1.FinishesAll actions) :
    let m := ((ofConfiguration c keyboard).load image).1
    let last := m.performAll actions
    let events := m.eventsAll actions
    let firings := events.count (.raise 0)
    let keys := events.countP Event.isPress
    let requests := m.processor.requests events
    let served (line : UInt8) := (m.processor.ledger events).count (.dispatched line)
    (1 ≤ c.keyboardLine.toNat ∧ c.keyboardLine.toNat ≤ 7) ∧
      last.processor = m.processor.afterAll events ∧
      (∀ e ∈ events, e = .step ∨ (e = .raise 0 ∧ e.RaisesOnly 0) ∨
        ∃ key, e = .press key c.keyboardLine ∧ e.RaisesOnly c.keyboardLine) ∧
      (last.timer.ticks = .ofNat firings ∧ last.keysDelivered = .ofNat keys) ∧
      (∀ pre e post, events = pre ++ e :: post →
        let p := m.processor.afterAll pre
        .raised 0 ∈ p.signals e ∨
            (p.interrupts.isPending 0 = false ∧ (p.after e).interrupts.isPending 0 = true) →
          e = .raise 0 ∨ (e = .step ∧ p.request? e = some 0)) ∧
      (served 0 ≤ firings + requests.count 0 ∧
        (firings < UInt64.size → served 0 ≤ last.timer.ticks.toNat + requests.count 0)) ∧
      (served c.keyboardLine ≤ keys + requests.count c.keyboardLine ∧
        (keys < UInt64.size →
          served c.keyboardLine ≤ last.keysDelivered.toNat + requests.count c.keyboardLine)) := by
  intro m last events firings keys requests served
  have hline : Configuration.IsKeyboardLine c.keyboardLine := Configuration.isKeyboardLine_of_ofText hc
  obtain ⟨hone, hseven, hmod, -⟩ := line_of_isKeyboardLine hline
  have hquiet : m.processor.interrupts = .quiet := Processor.interrupts_load _ image
  have hwent : m.Went events last := went_performAll hends
  obtain ⟨htimer, hkeyboard⟩ := hwent.count_lines hline
  have hfirings : last.timer.ticks = .ofNat firings := hwent.firings.trans (UInt64.zero_add _)
  have hkeys : last.keysDelivered = .ofNat keys := hwent.keys.trans (UInt64.zero_add _)
  refine ⟨⟨hone, hseven⟩, hwent.processor, ?_, ⟨hfirings, hkeys⟩, ?_, ?_, ?_⟩
  · intro e he
    rcases hwent.own e he with rfl | rfl | ⟨key, rfl⟩
    · exact .inl rfl
    · exact .inr (.inl ⟨rfl, Event.raisesOnly_of_line? rfl⟩)
    · exact .inr (.inr ⟨key, rfl, Event.raisesOnly_of_line? (congrArg some hmod)⟩)
  · intro pre e post hsplit p hset
    have he : e ∈ events := hsplit ▸ List.mem_append_right pre List.mem_cons_self
    have hraised : .raised 0 ∈ p.signals e :=
      hset.elim id fun ⟨hbefore, hafter⟩ => Processor.raised_of_set (by decide) hbefore hafter
    exact hwent.timerLine_raised hline he hraised
  · have hserved := Processor.count_dispatched_ledger_le hquiet events (show timerLine.toNat < 8 by decide)
    rw [show (events.filterMap Event.line?).count timerLine = firings from htimer] at hserved
    refine ⟨hserved, fun hfew => ?_⟩
    rwa [hfirings, UInt64.toNat_ofNat_of_lt' hfew]
  · have hserved := Processor.count_dispatched_ledger_le hquiet events (Nat.lt_succ_of_le hseven)
    rw [show (events.filterMap Event.line?).count c.keyboardLine = keys from hkeyboard] at hserved
    refine ⟨hserved, fun hfew => ?_⟩
    rwa [hkeys, UInt64.toNat_ofNat_of_lt' hfew]

/-- The keyboard raises line 3. -/
def thirdLine : Configuration :=
  { Configuration.default with timerPeriodMs := 1, keyboardLine := 3, maxCycles := some 4 }

def thirdLineText : String :=
  "\x7b\"timer_period_ms\":1,\"keyboard_line\":3,\"max_cycles\":4\x7d"

/-- Unmasks all lines and asks for line 8, which is line 0. Its handler is the image itself. -/
def asking : Machine :=
  ((ofConfiguration thirdLine (.scripted (.ofKeys [65, 66] 2))).load [0x82, 5, 0xFF, 0x82, 0, 8, 0x52, 0]).1

/-- Two periods of the timer pass ahead of the first instruction, which is one firing. -/
def askingActions : List Action := [.advance 2500000, .step .still, .step .still, .run .still 4]

theorem asking_shares_line_zero :
    Configuration.ofText thirdLineText = .ok thirdLine ∧ asking.FinishesAll askingActions ∧
      let last := asking.performAll askingActions
      let events := asking.eventsAll askingActions
      last.timer.ticks = 1 ∧ last.keysDelivered = 2 ∧ asking.processor.requests events = [0] ∧
        (asking.processor.ledger events).count (.dispatched 0) ≤ 1 + 1 ∧
        (asking.processor.ledger events).count (.dispatched 3) ≤ 2 + 0 := by
  have hc : Configuration.ofText thirdLineText = .ok thirdLine := rfl
  have hends : asking.FinishesAll askingActions := ⟨trivial, trivial, trivial, rfl, trivial⟩
  obtain ⟨-, -, -, ⟨hfirings, hkeys⟩, -, ⟨-, htimer⟩, -, hkeyboard⟩ := timer_owns_line_zero hc _ _ hends
  have hone : (asking.eventsAll askingActions).count (.raise 0) = 1 := rfl
  have htwo : (asking.eventsAll askingActions).countP Event.isPress = 2 := rfl
  have hrequests : asking.processor.requests (asking.eventsAll askingActions) = [0] := rfl
  have hticks : (asking.performAll askingActions).timer.ticks = 1 := hfirings.trans (congrArg _ hone)
  have hdelivered : (asking.performAll askingActions).keysDelivered = 2 := hkeys.trans (congrArg _ htwo)
  refine ⟨hc, hends, hticks, hdelivered, hrequests, ?_, ?_⟩
  · refine (htimer (hone.trans_lt (by decide))).trans_eq (congrArg₂ (· + ·) ?_ rfl)
    exact congrArg UInt64.toNat hticks
  · refine (hkeyboard (htwo.trans_lt (by decide))).trans_eq (congrArg₂ (· + ·) ?_ rfl)
    exact congrArg UInt64.toNat hdelivered

end Machine

end Microcomputer
