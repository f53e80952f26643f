import Microcomputer.CommandLine.Session
import Microcomputer.Proofs.Limits

/-!
What the command line shows of a run is what the run prints.

A console writes each emission at once and forgets it, while a machine by itself keeps them all. `Mirrors`
says that the two are at the same point: the console has written the lines of what the machine has kept.

* `Mirrors.next`: a step keeps them there, one that faults included.
* `mirrors_run`: so does a whole run, and both end with the same result.
* `run_shows_library_run` says what this comes to for the command, with all the ways in which it may fail
  before the run begins.
-/

namespace Microcomputer

namespace Machine

section

variable {m : Machine} {limit : Option UInt64} {n : Nat} {i : Instruction Register}

/-! ## The printout of a step -/

theorem pollKeyboard_printed (m : Machine) (out : Printout) :
    ({ m with printed := out } : Machine).pollKeyboard = { m.pollKeyboard with printed := out } := by
  rcases hpoll : m.keyboard.poll with ⟨_ | key, keyboard⟩ <;> simp only [pollKeyboard, hpoll]

/-- Polling the devices neither prints nor looks at what was printed. -/
theorem pollDevices_printed (m : Machine) (out : Printout) (now : Instant) :
    ({ m with printed := out } : Machine).pollDevices now = { m.pollDevices now with printed := out } :=
  pollKeyboard_printed (m.pollTimer now) out

/-- What the next step prints. -/
def emission (clock : Clock) (m : Machine) : Option Printed :=
  (m.pollDevices (clock m.processor.cycles)).processor.step.printed

/-- A step adds what it prints to the printout and does not look at it otherwise. -/
theorem stepBy_printed (clock : Clock) (m : Machine) (out : Printout) :
    ({ m with printed := out } : Machine).stepBy clock =
      ({ (m.stepBy clock).1 with printed := out.add (m.emission clock) }, (m.stepBy clock).2) := by
  unfold stepBy
  rw [pollDevices_printed]
  rfl

theorem printed_stepBy (clock : Clock) (m : Machine) :
    (m.stepBy clock).1.printed = m.printed.add (m.emission clock) := by
  have hstep := stepBy_printed clock m m.printed
  exact congrArg (fun s => s.1.printed) hstep

/-! ## The end of a loop -/

/-- The loop of a run to a limit is over after `n` steps. While it goes on the limit stays as it is, unlike the
one that a run would set which begins at that point. -/
def OverAfter (m : Machine) (limit : Option UInt64) (n : Nat) : Prop :=
  match limit with
  | some limit => n = limit.toNat - m.processor.cycles.toNat
  | none => (m.after .still n).processor.state ≠ .running

theorem OverAfter.zero (h : m.OverAfter limit 0) :
    ¬(m.processor.state = .running ∧ m.processor.isBelow limit = true) := by
  rintro ⟨hrun, hbelow⟩
  cases limit with
  | some limit =>
    have hleft : 0 = limit.toNat - m.processor.cycles.toNat := h
    have hlt := (Processor.isBelow_some_iff _ _).mp hbelow
    omega
  | none => exact h hrun

theorem OverAfter.isBelow (h : m.OverAfter limit (n + 1)) : m.processor.isBelow limit = true := by
  cases limit with
  | some limit =>
    have hleft : n + 1 = limit.toNat - m.processor.cycles.toNat := h
    rw [Processor.isBelow_some_iff]
    omega
  | none => rfl

theorem OverAfter.next (h : m.OverAfter limit (n + 1)) (hrun : m.processor.state = .running)
    (hok : m.step.2 = .ok i) : m.step.1.OverAfter limit n := by
  cases limit with
  | some limit =>
    have hleft : n + 1 = limit.toNat - m.processor.cycles.toNat := h
    show n = limit.toNat - m.step.1.processor.cycles.toNat
    rw [show m.step.1.processor.cycles = _ from cycles_stepBy_of_ok hok]
    exact (Processor.left_of_counted hleft.symm).symm
  | none =>
    have hstop : (m.after .still (n + 1)).processor.state ≠ .running := h
    rw [after, runFor_of_ok hrun hok] at hstop
    exact hstop

/-- A run that is not aborted and is over after `n` steps comes to what the steps come to. -/
theorem run?_of_endsAfter (h : m.EndsAfter .still n) (hfits : m.limit? ≠ none) :
    let r := runFor (fun _ _ => ()) .still n m ()
    m.run? = some (r.1, r.2.2.map fun _ => r.1.summary m.processor.cycles) := by
  have hrun := runWith?_of_endsAfter h hfits (fun _ _ => ()) ()
  exact congrArg (Option.map fun r : Machine × Unit × _ => (r.1, r.2.2)) hrun

theorem EndsAfter.overAfter (h : m.EndsAfter .still n) (hlimit : m.limit? = some limit) :
    m.OverAfter limit n := by
  rw [EndsAfter, hlimit] at h
  cases hmax : m.configuration.maxCycles with
  | none =>
    rw [hmax] at h
    obtain rfl := Option.some.inj ((limit?_of_unlimited hmax).symm.trans hlimit)
    exact h
  | some max =>
    rw [hmax] at h
    rw [limit?_of_configured hmax] at hlimit
    obtain ⟨count, hcount, rfl⟩ := Option.map_eq_some_iff.mp hlimit
    show n = count.toNat - m.processor.cycles.toNat
    rw [Processor.toNat_limit hcount, Nat.add_sub_cancel_left]
    exact h

end

end Machine

namespace CommandLine

/-! ## Consoles -/

theorem unlines_append (lines more : List String) :
    unlines (lines ++ more) = unlines lines ++ unlines more := by
  rw [unlines, List.map_append, String.join_append]
  rfl

namespace Console

/-- Writing an emission at once comes to the same as writing it with all others at the end. -/
theorem stdout_write (c : Console) (out : Printout) (emission : Option Printed)
    (hprinted : c.machine.printed = Printout.add #[] emission) (hstdout : c.stdout = unlines out.lines) :
    c.write = ⟨{ c.machine with printed := #[] }, unlines (out.add emission).lines, c.stderr⟩ := by
  obtain ⟨machine, stdout, stderr⟩ := c
  obtain rfl : stdout = unlines out.lines := hstdout
  rw [write, hprinted]
  cases emission with
  | none => rfl
  | some p =>
    have hlines : unlines (out.add (some p)).lines = unlines out.lines ++ p.line ++ "\n" := by
      rw [Printout.lines_add_some, unlines_append, String.append_assoc]
      exact congrArg (unlines out.lines ++ ·) String.empty_append
    rw [hlines]
    exact stdout_emit _ p

/-- The console's machine is this one but for the printout, and the console has written its lines. -/
structure Mirrors (c : Console) (m : Machine) : Prop where
  machine : c.machine = { m with printed := #[] }
  stdout : c.stdout = unlines m.printed.lines

/-- The console after the next step. -/
def next (c : Console) : Console := { c.trace with machine := c.machine.step.1 }.write

section

variable {c : Console} {m : Machine} {limit : Option UInt64} {i : Instruction Register} {f : Fault}

theorem stdout_trace (c : Console) : c.trace.stdout = c.stdout := by
  unfold trace
  split <;> rfl

/-- A step keeps console and machine at the same point. -/
theorem Mirrors.next (h : c.Mirrors m) : c.next.Mirrors m.step.1 ∧ c.machine.step.2 = m.step.2 := by
  have hstep : c.machine.step =
      ({ m.step.1 with printed := Printout.add #[] (m.emission .still) }, m.step.2) := by
    rw [h.machine]
    exact m.stepBy_printed .still #[]
  have hprinted : m.step.1.printed = m.printed.add (m.emission .still) := m.printed_stepBy .still
  have hwritten := stdout_write { c.trace with machine := c.machine.step.1 } m.printed (m.emission .still)
    (by rw [hstep]) (c.stdout_trace.trans h.stdout)
  refine ⟨⟨?_, ?_⟩, by rw [hstep]⟩
  · rw [Console.next, hwritten, hstep]
  · rw [Console.next, hwritten, hprinted]

theorem runWhile_of_ok (hrun : c.machine.processor.state = .running)
    (hlimit : c.machine.processor.isBelow limit = true) (h : c.machine.step.2 = .ok i) :
    c.runWhile limit = c.next.runWhile limit := by
  have hstep : c.machine.step = (c.machine.step.1, .ok i) := Prod.ext rfl h
  rw [runWhile_eq, turn, if_pos ⟨hrun, hlimit⟩, hstep]
  rfl

theorem runWhile_of_error (hrun : c.machine.processor.state = .running)
    (hlimit : c.machine.processor.isBelow limit = true) (h : c.machine.step.2 = .error f) :
    c.runWhile limit = (c.next, .error f) := by
  have hstep : c.machine.step = (c.machine.step.1, .error f) := Prod.ext rfl h
  rw [runWhile_eq, turn, if_pos ⟨hrun, hlimit⟩, hstep]
  rfl

/-- Console and machine run to the same end. -/
theorem Mirrors.runWhile {n : Nat} (h : c.Mirrors m) (hover : m.OverAfter limit n) :
    let r := Machine.runFor (fun _ _ => ()) .still n m ()
    (c.runWhile limit).1.Mirrors r.1 ∧ (c.runWhile limit).2 = r.2.2 := by
  -- Both loops look at the same processor, so that they go on or end together.
  have hprocessor : c.machine.processor = m.processor := by rw [h.machine]
  induction n generalizing c m with
  | zero =>
    have hend := hover.zero
    rw [← hprocessor] at hend
    rw [runWhile_eq, turn, if_neg hend]
    exact ⟨h, rfl⟩
  | succ n ih =>
    by_cases hrun : m.processor.state = .running
    · have hbelow := hover.isBelow
      obtain ⟨hnext, hresult⟩ := h.next
      cases hstep : m.step.2 with
      | ok i =>
        have hprocessors : c.next.machine.processor = m.step.1.processor := by rw [hnext.machine]
        rw [runWhile_of_ok (hprocessor ▸ hrun) (hprocessor ▸ hbelow) (hresult.trans hstep),
          Machine.runFor_of_ok hrun hstep]
        exact ih hnext (hover.next hrun hstep) hprocessors
      | error f =>
        rw [runWhile_of_error (hprocessor ▸ hrun) (hprocessor ▸ hbelow) (hresult.trans hstep),
          Machine.runFor_of_error hrun hstep]
        exact ⟨hnext, rfl⟩
    · have hend : ¬(c.machine.processor.state = .running ∧ c.machine.processor.isBelow limit = true) :=
        fun hgo => hrun (hprocessor ▸ hgo.1)
      rw [runWhile_eq, turn, if_neg hend, Machine.runFor_of_not_running hrun]
      exact ⟨h, rfl⟩

/-- A run on a console that shows nothing yet has shown in the end what the machine by itself has printed,
and comes to the same result. -/
theorem mirrors_run {n : Nat} (hempty : m.printed = #[]) (h : m.EndsAfter .still n)
    (hfits : m.limit? ≠ none) :
    ∃ shown last result, (ofMachine m).run? = some (shown, result) ∧ m.run? = some (last, result) ∧
      shown.Mirrors last := by
  have hstart : (ofMachine m).Mirrors m := by
    refine ⟨?_, ?_⟩
    · show m = { m with printed := #[] }
      rw [← hempty]
    · rw [hempty]
      rfl
  obtain ⟨limit, hlimit⟩ := Option.ne_none_iff_exists'.mp hfits
  obtain ⟨hlast, hresult⟩ := hstart.runWhile (h.overAfter hlimit)
  refine ⟨((ofMachine m).runWhile limit).1, _, _, ?_, Machine.run?_of_endsAfter h hfits, hlast⟩
  have hrun : (ofMachine m).run? = some (((ofMachine m).runWhile limit).1,
      ((ofMachine m).runWhile limit).2.map fun _ =>
        ((ofMachine m).runWhile limit).1.machine.summary m.processor.cycles) :=
    congrArg (Option.map _) hlimit
  rw [hrun, hresult, hlast.machine]
  rfl

end

end Console

/-! ## The command -/

/-- The configuration that a run starts from: the default one, or the one in its file. -/
def Configures (files : Files) (configFile : Option String) (base : Configuration) : Prop :=
  match configFile with
  | none => base = .default
  | some path => Configuration.load files path = .ok base

/-- What a run goes by if nothing is wrong ahead of it. The image holds something and fits below the
stack. -/
structure RunOptions.Accepted (o : RunOptions) (files : Files) (base : Configuration)
    (bytes : List UInt8) : Prop where
  configures : Configures files o.configFile base
  loaded : Image.load files o.program = .ok bytes
  nonempty : bytes ≠ []
  fits : bytes.length ≤ 243

section

variable {files : Files} {o : RunOptions} {base : Configuration} {bytes : List UInt8}

theorem configuration_of_configures {configFile : Option String} (h : Configures files configFile base) :
    configuration files configFile = .ok base := by
  cases configFile with
  | none => exact congrArg Except.ok h.symm
  | some path =>
    have hload : Configuration.load files path = .ok base := h
    rw [configuration, hload]

theorem configuration_fails {configFile : Option String} (h : ∀ base, ¬Configures files configFile base) :
    ∃ report, configuration files configFile = .error (.failure report) := by
  cases configFile with
  | none => exact absurd rfl (h .default)
  | some path =>
    cases hload : Configuration.load files path with
    | ok base => exact absurd hload (h base)
    | error e =>
      rw [configuration, hload]
      exact ⟨_, rfl⟩

theorem image_of_loaded {path : String} (h : Image.load files path = .ok bytes) (hne : bytes ≠ []) :
    image files path = .ok bytes := by
  rw [image, h]
  cases bytes with
  | nil => exact absurd rfl hne
  | cons b rest => rfl

theorem image_fails {path : String} (h : ∀ bytes, Image.load files path = .ok bytes → bytes = []) :
    ∃ report, image files path = .error (.failure report) := by
  unfold image
  split
  · exact ⟨_, rfl⟩
  · next bytes hne hload => exact absurd (h bytes hload) hne
  · exact ⟨_, rfl⟩

/-- A machine takes the images that fit below the stack. -/
theorem load_fits (m : Machine) (h : bytes.length ≤ 243) : (m.load bytes).2 = .ok () := by
  show (m.processor.load bytes).2 = _
  rw [Processor.load_of_fits _ h]

theorem load_too_large (m : Machine) (h : 243 < bytes.length) :
    (m.load bytes).2 = .error ⟨bytes.length⟩ := by
  show (m.processor.load bytes).2 = _
  rw [Processor.load_of_large _ h]

/-- The machine that a run starts. -/
def RunOptions.machine (o : RunOptions) (typed : List UInt8) (base : Configuration) : Machine :=
  .ofConfiguration (o.override base) (o.keyboard typed)

theorem runProgram_eq (typed : List UInt8) (hconfiguration : configuration files o.configFile = .ok base)
    (himage : image files o.program = .ok bytes) :
    runProgram files typed o =
      match ((o.machine typed base).load bytes).2 with
      | .error e => .error (.failure ("Failed to load program: " ++ e.message))
      | .ok _ =>
        match (Console.ofMachine ((o.machine typed base).load bytes).1).run? with
        | none => .error .aborted
        | some (last, result) => .ok (runResponse o.dumpState last result) := by
  unfold runProgram
  rw [hconfiguration]
  show (image files o.program >>= _) = _
  rw [himage]
  rfl

/-- Nothing is printed unless everything is right ahead of the run. -/
theorem runProgram_fails (typed : List UInt8) (h : ∀ base bytes, ¬o.Accepted files base bytes) :
    ∃ report, runProgram files typed o = .error (.failure report) := by
  by_cases hconfigures : ∃ base, Configures files o.configFile base
  · obtain ⟨base, hbase⟩ := hconfigures
    have hconfiguration := configuration_of_configures hbase
    by_cases hloads : ∃ bytes, Image.load files o.program = .ok bytes ∧ bytes ≠ []
    · obtain ⟨bytes, hload, hne⟩ := hloads
      have hlarge : 243 < bytes.length :=
        Nat.lt_of_not_le fun hfits => h base bytes ⟨hbase, hload, hne, hfits⟩
      rw [runProgram_eq typed hconfiguration (image_of_loaded hload hne), load_too_large _ hlarge]
      exact ⟨_, rfl⟩
    · obtain ⟨report, himage⟩ := image_fails fun bytes hload =>
        by_contra fun hne => hloads ⟨bytes, hload, hne⟩
      refine ⟨report, ?_⟩
      unfold runProgram
      rw [hconfiguration]
      show (image files o.program >>= _) = _
      rw [himage]
      rfl
  · obtain ⟨report, hconfiguration⟩ := configuration_fails (not_exists.mp hconfigures)
    refine ⟨report, ?_⟩
    unfold runProgram
    rw [hconfiguration]
    rfl

/-- The exit code of a run. -/
def exitCode (result : Except Fault RunSummary) : UInt32 :=
  match result with
  | .ok _ => 0
  | .error _ => 1

/-- Without a dump of the state, the response shows what the console has written. -/
theorem runResponse_of_mirrors {c : Console} {m : Machine} (h : c.Mirrors m)
    (result : Except Fault RunSummary) :
    ∃ stderr, runResponse false c result = ⟨exitCode result, unlines m.printed.lines, stderr⟩ := by
  have hstdout : c.stdout ++ "" = unlines m.printed.lines := String.append_empty.trans h.stdout
  cases result with
  | ok summary => exact ⟨_, congrArg (Response.mk 0 · _) hstdout⟩
  | error f => exact ⟨_, congrArg (Response.mk 1 · _) hstdout⟩

/-- Where everything is right ahead of the run, what it shows is what the machine prints when it runs by
itself. -/
theorem runProgram_of_accepted (typed : List UInt8) (h : o.Accepted files base bytes)
    (hdump : o.dumpState = false) {n : Nat}
    (hends : ((o.machine typed base).load bytes).1.EndsAfter .still n) :
    ∃ last result stderr, ((o.machine typed base).load bytes).1.run? = some (last, result) ∧
      runProgram files typed o = .ok ⟨exitCode result, unlines last.printed.lines, stderr⟩ := by
  have hfits : ((o.machine typed base).load bytes).1.limit? ≠ none :=
    (Machine.limit?_loaded _ _ bytes).symm ▸ Option.some_ne_none _
  obtain ⟨shown, last, result, hconsole, hrun, hlast⟩ := Console.mirrors_run rfl hends hfits
  obtain ⟨stderr, hresponse⟩ := runResponse_of_mirrors hlast result
  refine ⟨last, result, stderr, hrun, ?_⟩
  rw [runProgram_eq typed (configuration_of_configures h.configures) (image_of_loaded h.loaded h.nonempty),
    load_fits _ h.fits, hconsole, hdump]
  exact congrArg Except.ok hresponse

end

/-- The command line prints what a machine prints that runs by itself. If the configuration is accepted and
the image loads, holds something and fits, a run with keys of its own shows every emission of that machine on
a line, those ahead of a fault included, and its exit code tells whether the run met a fault. The options go
ahead of what the configuration says, but traces are shown if either asks for them. In every other case
nothing is printed, and the exit code is one. -/
theorem run_shows_library_run (files : Files) (typed : List UInt8) {arguments : List String}
    {o : RunOptions} {keys : String} (harguments : Command.ofArguments arguments = .ok (.run o))
    (hkeys : o.keys = some keys) (hdump : o.dumpState = false) :
    (∀ base bytes, o.Accepted files base bytes →
      let c : Configuration :=
        { timerPeriodMs := o.timerMs.getD base.timerPeriodMs
          keyboardLine := base.keyboardLine
          cycleDelayUs := o.delayUs.getD base.cycleDelayUs
          maxCycles := if o.maxCycles.isSome then o.maxCycles else base.maxCycles
          trace := base.trace || o.trace }
      let keyboard : Keyboard := .scripted (.ofKeys keys.toUTF8.data.toList o.keyInterval)
      let m := ((Machine.ofConfiguration c keyboard).load bytes).1
      ∀ n, m.EndsAfter .still n →
        ∃ last result stderr, m.run? = some (last, result) ∧
          perform files typed arguments = .finished
            { code := exitCode result
              stdout := String.join (last.printed.lines.map (· ++ "\n"))
              stderr }) ∧
      ((∀ base bytes, ¬o.Accepted files base bytes) →
        ∃ stderr, perform files typed arguments = .finished ⟨1, "", stderr⟩) := by
  have hperform : perform files typed arguments = (Command.run o).perform files typed := by
    rw [perform, harguments]
  rw [hperform, Command.perform]
  refine ⟨?_, fun hrefused => ?_⟩
  · intro base bytes haccepted c keyboard m n hends
    have hc : o.override base = c := by
      unfold RunOptions.override
      cases hmax : o.maxCycles <;> simp [c, hmax]
    have hkeyboard : o.keyboard typed = keyboard := by
      rw [RunOptions.keyboard, hkeys]
    have hm : ((o.machine typed base).load bytes).1 = m := by
      rw [RunOptions.machine, hc, hkeyboard]
    rw [← hm] at hends ⊢
    obtain ⟨last, result, stderr, hlast, hrun⟩ := runProgram_of_accepted typed haccepted hdump hends
    rw [hrun]
    exact ⟨last, result, stderr, hlast, rfl⟩
  · obtain ⟨report, hrun⟩ := runProgram_fails typed hrefused
    rw [hrun]
    exact ⟨_, rfl⟩

/-- Prints a number and a letter, and then meets a byte that is no instruction. -/
def greeting : List UInt8 := [0x82, 0, 72, 0x47, 0, 0x48, 0, 0xFF]

def quiet : Configuration := { Configuration.default with timerPeriodMs := 0 }

def greetingFiles : Files :=
  .ofList [("greeting.bin", ⟨greeting.toArray⟩), ("quiet.json", "\x7b\"timer_period_ms\":0\x7d".toUTF8)]

def greetingArguments : List String :=
  ["run", "greeting.bin", "-c", "quiet.json", "--keys", "A", "--max-cycles", "9", "-d"]

def greetingOptions : RunOptions where
  program := "greeting.bin"
  configFile := some "quiet.json"
  maxCycles := some 9
  trace := true
  timerMs := none
  delayUs := none
  keys := some "A"
  keyInterval := 50
  dumpState := false

def greetingMachine : Machine :=
  ((Machine.ofConfiguration { quiet with maxCycles := some 9, trace := true }
    (.scripted (.ofKeys [65] 50))).load greeting).1

theorem greeting_shown_before_fault :
    Command.ofArguments greetingArguments = .ok (.run greetingOptions) ∧
      greetingOptions.Accepted greetingFiles quiet greeting ∧
      ∃ stderr, perform greetingFiles [] greetingArguments = .finished ⟨1, "72\nH\n", stderr⟩ := by
  have harguments : Command.ofArguments greetingArguments = .ok (.run greetingOptions) := by
    decide +kernel
  have hquiet : Configuration.load greetingFiles "quiet.json" = .ok quiet := by decide +kernel
  have hloaded : Image.load greetingFiles "greeting.bin" = .ok greeting := by decide +kernel
  have haccepted : greetingOptions.Accepted greetingFiles quiet greeting :=
    ⟨hquiet, hloaded, nofun, by decide⟩
  have hends : greetingMachine.EndsAfter .still 9 := rfl
  refine ⟨harguments, haccepted, ?_⟩
  obtain ⟨hshown, -⟩ := run_shows_library_run greetingFiles [] harguments rfl rfl
  obtain ⟨last, result, stderr, hrun, hresponse⟩ := hshown quiet greeting haccepted 9 hends
  have hsteps := (Machine.run?_of_endsAfter hends (by decide)).symm.trans hrun
  have hprinted : last.printed.lines = ["72", "H"] :=
    (congrArg (fun r : Machine × _ => r.1.printed.lines) (Option.some.inj hsteps)).symm
  have hfault : result = .error (.invalidOpcode 7 0xFF) :=
    (congrArg Prod.snd (Option.some.inj hsteps)).symm
  rw [hprinted, hfault] at hresponse
  exact ⟨stderr, hresponse⟩

end CommandLine

end Microcomputer
