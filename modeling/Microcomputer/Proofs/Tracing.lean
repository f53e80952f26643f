import Microcomputer.Processor.Cells
import Microcomputer.Proofs.Columns
import Microcomputer.Proofs.Limits

/-!
What a trace tells about the instructions that a run executes.

A line of the trace is taken before the devices are polled, and the instruction is fetched after that.
`stepped` lists the machines at which a run takes its steps, so that the trace is their lines in order
(`traced_eq`). Between a line and the fetch only the keyboard writes, and only its own cell: `read_pollDevices`.

* `TraceView.ofLine?_traceEntry`: a line, cut into its columns, is read back as the program counter, the three
  bytes there, the registers and the disassembly.
* `fetched_pollDevices_iff`: the bytes that a line shows are those that the step fetches, unless a new key
  arrives just then in one of their cells.
* `trace_tells`: the lines of a trace, read back, are what the machines show ahead of their steps; a line that
  shows the fetched bytes shows the instruction that the step returns, or the byte that does not decode.
* `key_escapes_trace` is a run whose trace misses the key that the step then executes.
-/

namespace Microcomputer

/-- What a line of a trace shows. -/
structure TraceView where
  pc : UInt8
  /-- The bytes that come next. -/
  bytes : List UInt8
  registers : List UInt8
  /-- The text of the instruction that comes next. -/
  text : String
  deriving DecidableEq, Repr

/-- Reads the columns of a line. -/
def TraceView.ofLine? (line : String) : Option TraceView :=
  match Text.cut [7, 2, 3, 8, 3, 23, 3] line.toList with
  | [label, pc, bar, bytes, bar', registers, bar'', text] =>
    if label = "TRACE: ".toList ∧ [bar, bar', bar''] = List.replicate 3 " | ".toList then do
      let pc ← Text.hexWord? pc
      let bytes ← Text.readColumn? Text.hexWord? bytes
      let registers ← Text.readColumn? Text.hexWord? registers
      return ⟨pc, bytes, registers, String.ofList text⟩
    else none
  | _ => none

namespace Processor

section

variable {p q : Processor} {i : Instruction Register} {e : DecodeError}

/-- The bytes that a step fetches. -/
def fetched (p : Processor) : List UInt8 := p.fetchedCells.map p.memory.read

/-- The text of the instruction that comes next. -/
def disassembly (p : Processor) : String := (p.memory.disassembleAt p.pc).1

theorem decodeAt_congr (hfetched : p.fetched = q.fetched) :
    p.memory.decodeAt p.pc = q.memory.decodeAt q.pc := by
  simp only [fetched, fetchedCells, List.map_cons, List.map_nil, List.cons.injEq, and_true] at hfetched
  obtain ⟨hopcode, hfirst, hsecond⟩ := hfetched
  rw [Memory.decodeAt, Memory.decodeAt, hopcode, hfirst, hsecond]

theorem disassembly_congr (hfetched : p.fetched = q.fetched) : p.disassembly = q.disassembly := by
  have hopcode : p.memory.read p.pc = q.memory.read q.pc := (List.cons.inj hfetched).1
  rw [disassembly, disassembly, Memory.disassembleAt, Memory.disassembleAt, decodeAt_congr hfetched, hopcode]

/-- What the processor shows in a line of the trace. -/
def traceView (p : Processor) : TraceView :=
  ⟨p.pc, p.fetched, p.registers.bank.toList, p.disassembly⟩

/-- A line of the trace, without what is between its columns, shows the program counter, the bytes that come
next, the registers and the disassembly. -/
theorem ofLine?_traceEntry (p : Processor) : TraceView.ofLine? p.traceEntry = some p.traceView := by
  have hread {bytes : List UInt8} (hne : bytes ≠ []) :=
    Text.readColumn?_intercalate Text.hexWord?_hex Text.blank_notMem_hex hne
  have hlength {bytes : List UInt8} (hne : bytes ≠ []) :=
    Text.length_intercalate_blank Text.length_hex hne
  have hthree : p.fetched ≠ [] := List.cons_ne_nil _ _
  have height : p.registers.bank.toList.length = 8 := Vector.length_toList
  have hsome : p.registers.bank.toList ≠ [] := List.ne_nil_of_length_eq_add_one height
  have hbytes : (" ".intercalate (p.fetched.map Text.hex)).toList.length = 8 := by
    have hcount : p.fetched.length = 3 := rfl
    have hwidth := hlength hthree
    omega
  have hbank : (" ".intercalate (p.registers.bank.toList.map Text.hex)).toList.length = 23 := by
    have hwidth := hlength hsome
    omega
  have hlabel : "TRACE: ".toList.length = 7 := rfl
  have hbar : " | ".toList.length = 3 := rfl
  have hcolumns : p.traceEntry.toList = "TRACE: ".toList ++ ((Text.hex p.pc).toList ++ (" | ".toList ++
      ((" ".intercalate (p.fetched.map Text.hex)).toList ++ (" | ".toList ++
        ((" ".intercalate (p.registers.bank.toList.map Text.hex)).toList ++
          (" | ".toList ++ p.disassembly.toList)))))) := by
    simp only [traceEntry, traceLine, String.toList_append, List.append_assoc]
    rfl
  rw [TraceView.ofLine?, hcolumns, Text.cut_append hlabel, Text.cut_append (Text.length_hex _),
    Text.cut_append hbar, Text.cut_append hbytes, Text.cut_append hbar, Text.cut_append hbank,
    Text.cut_append hbar, Text.cut]
  simp only [Text.hexWord?_hex, hread hthree, hread hsome, String.ofList_toList]
  exact if_pos ⟨trivial, rfl⟩

/-- A line of the trace shows the registers and the bytes that come next. -/
theorem traceEntry_congr (hregisters : p.registers = q.registers) (hfetched : p.fetched = q.fetched) :
    p.traceEntry = q.traceEntry := by
  have hpc : p.pc = q.pc := congrArg RegisterFile.pc hregisters
  have hline : p.traceLine = q.traceLine := by
    show "TRACE: " ++ Text.hex p.pc ++ " | " ++ " ".intercalate (p.fetched.map Text.hex) ++ " | " ++ _ = _
    rw [hpc, hfetched, hregisters]
    rfl
  have htext := disassembly_congr hfetched
  rw [disassembly, disassembly] at htext
  rw [traceEntry, traceEntry, hline, htext]

/-- The disassembly names the instruction that the step then returns. -/
theorem disassembly_of_ok (h : p.step.result = .ok i) : p.disassembly = i.raw.assembly := by
  obtain ⟨done, ⟨-, hdecode, -⟩, -⟩ := completes_of_step h
  rw [disassembly, Memory.disassembleAt, hdecode]

theorem disassembly_of_decodeError (h : p.memory.decodeAt p.pc = .error e) :
    p.disassembly = "DB " ++ Text.address (p.memory.read p.pc) := by
  rw [disassembly, Memory.disassembleAt, h]

end

end Processor

namespace Machine

section

variable {m q : Machine} {clock : Clock} {n : Nat} {i : Instruction Register}

/-! ## Between a line and the fetch -/

/-- Of the devices only the keyboard writes, and only to its cell. -/
theorem read_pollDevices (m : Machine) (now : Instant) (a : UInt8) :
    (m.pollDevices now).processor.memory.read a =
      if keyAddress = a then m.keyboard.poll.1.getD (m.processor.memory.read a)
      else m.processor.memory.read a := by
  have htimer : (m.pollTimer now).processor.memory = m.processor.memory := by
    show (m.processor.raiseTimer (m.timer.poll now.nanoseconds).1).memory = _
    cases (m.timer.poll now.nanoseconds).1 <;> rfl
  have hkeyboard : (m.pollTimer now).keyboard = m.keyboard := rfl
  unfold pollDevices pollKeyboard
  rw [hkeyboard]
  split
  · next keyboard hpoll =>
    rw [hpoll, Option.getD_none, ite_self]
    exact congrArg (Memory.read · a) htimer
  · next key keyboard hpoll =>
    show ((m.pollTimer now).processor.press key _).memory.read a = _
    rw [Processor.read_press, hpoll, htimer, Option.getD_some]

/-- The bytes after the poll are those before it, unless it brings a new key into one of their cells. -/
theorem fetched_pollDevices_iff (m : Machine) (now : Instant) :
    (m.pollDevices now).processor.fetched = m.processor.fetched ↔
      ∀ key, m.keyboard.poll.1 = some key → keyAddress ∈ m.processor.fetchedCells →
        key = m.processor.memory.read keyAddress := by
  have hcells : (m.pollDevices now).processor.fetchedCells = m.processor.fetchedCells := by
    rw [(m.stands_pollDevices now).eq]
    rfl
  unfold Processor.fetched
  rw [hcells, List.map_inj_left]
  simp only [read_pollDevices]
  cases m.keyboard.poll.1 with
  | none => simp
  | some key =>
    simp only [Option.getD_some, Option.some.injEq]
    constructor
    · rintro hsame _ rfl hkey
      have hread := hsame keyAddress hkey
      rwa [if_pos rfl] at hread
    · intro hsame a ha
      split
      · next heq => exact heq ▸ hsame key rfl (heq ▸ ha)
      · rfl

/-! ## The lines of a run -/

/-- The machines at which a run takes its first `n` steps, or all its steps if they are fewer. -/
def stepped (clock : Clock) (n : Nat) (m : Machine) : List Machine :=
  match n with
  | 0 => []
  | n + 1 =>
    if m.processor.state = .running then
      match m.stepBy clock with
      | (next, .ok _) => m :: stepped clock n next
      | (_, .error _) => [m]
    else []

/-- The trace of the first `n` steps of a run. -/
def traced (clock : Clock) (n : Nat) (m : Machine) : Array String :=
  (runFor (fun lines p => lines.push p.traceEntry) clock n m #[]).2.1

theorem running_of_mem_stepped (h : q ∈ m.stepped clock n) : q.processor.state = .running := by
  induction n generalizing m with
  | zero => cases h
  | succ n ih =>
    rw [stepped] at h
    split at h
    · next hrun =>
      split at h
      · rcases List.mem_cons.mp h with rfl | hrest
        · exact hrun
        · exact ih hrest
      · exact List.mem_singleton.mp h ▸ hrun
    · cases h

/-- A run's looks are at the machines of its steps, in order. -/
theorem looks_runFor {α : Type} (view : Processor → α) (clock : Clock) (n : Nat) (m : Machine)
    (seen : Array α) :
    (runFor (fun seen p => seen.push (view p)) clock n m seen).2.1 =
      seen ++ ((m.stepped clock n).map fun q => view q.processor).toArray := by
  induction n generalizing m seen with
  | zero => exact Array.append_empty.symm
  | succ n ih =>
    by_cases hrun : m.processor.state = .running
    · cases hresult : (m.stepBy clock).2 with
      | ok i =>
        have hstep : m.stepBy clock = ((m.stepBy clock).1, .ok i) := Prod.ext rfl hresult
        rw [runFor_of_ok hrun hresult, ih, stepped, if_pos hrun, hstep]
        simp
      | error f =>
        have hstep : m.stepBy clock = ((m.stepBy clock).1, .error f) := Prod.ext rfl hresult
        rw [runFor_of_error hrun hresult, stepped, if_pos hrun, hstep]
        simp
    · rw [runFor_of_not_running hrun, stepped, if_neg hrun]
      simp

theorem traced_eq (clock : Clock) (n : Nat) (m : Machine) :
    m.traced clock n = ((m.stepped clock n).map fun q => q.processor.traceEntry).toArray :=
  (looks_runFor Processor.traceEntry clock n m #[]).trans Array.empty_append

/-- Each line of a trace shows a processor ahead of its step, as it is before the devices are polled: read back,
it is the program counter, the three bytes there, the registers and the disassembly. The step executes what it
fetches after that. If no new key has come into one of the fetched cells, the line shows the registers and the
bytes that the step finds, with the text of the instruction that it returns, or with the byte that does not
decode. -/
theorem trace_tells (m : Machine) (clock : Clock) (n : Nat) :
    m.traced clock n = ((m.stepped clock n).map fun q => q.processor.traceEntry).toArray ∧
    (m.traced clock n).toList.map TraceView.ofLine? =
      ((m.stepped clock n).map fun q => some q.processor.traceView) ∧
    (m.EndsAfter clock n → m.limit? ≠ none →
      (m.runWith? (fun lines p => lines.push p.traceEntry) clock #[]).map (·.2.1) =
        some (m.traced clock n)) ∧
    ∀ q ∈ m.stepped clock n,
      let p := q.processor
      let polled := (q.pollDevices (clock p.cycles)).processor
      (q.stepBy clock).2 = polled.step.result ∧ p.registers = polled.registers ∧
      TraceView.ofLine? p.traceEntry =
        some ⟨p.pc, [p.memory.read p.pc, p.memory.read (p.pc + 1), p.memory.read (p.pc + 2)],
          p.registers.bank.toList, p.disassembly⟩ ∧
      (polled.fetched = p.fetched ↔
        ∀ key, q.keyboard.poll.1 = some key → keyAddress ∈ p.fetchedCells →
          key = p.memory.read keyAddress) ∧
      (polled.fetched = p.fetched →
        p.traceEntry = polled.traceEntry ∧
        TraceView.ofLine? p.traceEntry =
          some ⟨polled.pc, polled.fetched, polled.registers.bank.toList, polled.disassembly⟩ ∧
        (∀ i, (q.stepBy clock).2 = .ok i → p.disassembly = i.raw.assembly) ∧
        ∀ e, polled.memory.decodeAt polled.pc = .error e →
          (q.stepBy clock).2 = .error (.ofDecodeError p.pc e) ∧
            p.disassembly = "DB " ++ Text.address (p.memory.read p.pc)) := by
  refine ⟨m.traced_eq clock n, ?_, fun hends hfits => ?_, fun q hq => ?_⟩
  · rw [traced_eq, List.toList_toArray, List.map_map]
    exact List.map_congr_left fun q _ => Function.comp_apply.trans q.processor.ofLine?_traceEntry
  · rw [runWith?_of_endsAfter hends hfits]
    rfl
  · have hrun := running_of_mem_stepped hq
    have hstands := q.stands_pollDevices (clock q.processor.cycles)
    have hregisters : q.processor.registers = (q.pollDevices (clock q.processor.cycles)).processor.registers := by
      rw [hstands.eq]
    refine ⟨rfl, hregisters, q.processor.ofLine?_traceEntry, q.fetched_pollDevices_iff _,
      fun hsame => ?_⟩
    have hentry := Processor.traceEntry_congr hregisters hsame.symm
    refine ⟨hentry, ?_, fun i hi => ?_, fun e he => ?_⟩
    · rw [hentry]
      exact Processor.ofLine?_traceEntry _
    · rw [Processor.disassembly_congr hsame.symm]
      exact Processor.disassembly_of_ok hi
    · have hdecode := (Processor.decodeAt_congr hsame).symm.trans he
      refine ⟨?_, Processor.disassembly_of_decodeError hdecode⟩
      show (q.pollDevices (clock q.processor.cycles)).processor.step.result = _
      rw [Processor.step_of_decodeError (hstands.state.trans hrun) he]
      exact congrArg (fun pc => Except.error (Fault.ofDecodeError pc e))
        (congrArg RegisterFile.pc hregisters).symm

end

/-- Ten instructions at most, and no timer. -/
def tenUntimed : Configuration :=
  { Configuration.default with timerPeriodMs := 0, maxCycles := some 10 }

/-- The program jumps to the key's cell. The first key, the opcode of a halt, comes ahead of the instruction
there. -/
def cornered : Machine :=
  ((ofConfiguration tenUntimed (.scripted (.ofKeys [1] 3))).load [0x82, 0, 0xF4, 0x54, 0]).1

theorem cornered_told :
    cornered ∈ cornered.stepped .still 10 ∧
      (cornered.pollDevices .origin).processor.fetched = cornered.processor.fetched ∧
      (cornered.stepBy .still).2 = .ok (.loadImmediate .first 0xF4) ∧
      TraceView.ofLine? cornered.processor.traceEntry =
        some ⟨0, [0x82, 0, 0xF4], [0, 0, 0, 0, 0, 0, 0, 0xF3], "LDI R0,244"⟩ := by
  have hmem : cornered ∈ cornered.stepped .still 10 := List.mem_cons_self
  obtain ⟨-, -, -, htells⟩ := cornered.trace_tells .still 10
  obtain ⟨-, -, -, hiff, hshown⟩ := htells cornered hmem
  have hfar : keyAddress ∉ cornered.processor.fetchedCells := by decide
  have hsame := hiff.mpr fun _ _ hin => absurd hin hfar
  have hstep : (cornered.stepBy .still).2 = .ok (.loadImmediate .first 0xF4) := rfl
  obtain ⟨-, hview, -⟩ := hshown hsame
  exact ⟨hmem, hsame, hstep, hview⟩

/-- The last line of the trace shows the cell as it is before the key comes, and an instruction that is not
executed. The step executes the key. -/
theorem key_escapes_trace :
    cornered.runTraced?.bind (·.2.1.back?) =
        some "TRACE: F4 | 00 00 00 | F4 00 00 00 00 00 00 F3 | NOP" ∧
      ∃ last, (cornered.stepped .still 10).getLast? = some last ∧
        TraceView.ofLine? last.processor.traceEntry =
          some ⟨0xF4, [0, 0, 0], [0xF4, 0, 0, 0, 0, 0, 0, 0xF3], "NOP"⟩ ∧
        (last.pollDevices .origin).processor.fetched = [1, 0, 0] ∧
        (last.stepBy .still).2 = .ok .halt ∧
        last.processor.disassembly ≠ (Instruction.halt : Instruction Register).raw.assembly := by
  have hfits : cornered.limit? ≠ none := by decide
  have hends : cornered.EndsAfter .still 10 := rfl
  refine ⟨?_, _, rfl, Processor.ofLine?_traceEntry _, rfl, rfl, by decide⟩
  rw [runTraced?, runWith?_of_endsAfter hends hfits]
  rfl

end Machine

end Microcomputer
