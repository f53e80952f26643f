import Microcomputer.Proofs.JsonText
import Microcomputer.Snapshot

/-!
The text of a state, read back.

Each part of a state is read as it was written, and with the parts the whole: `saved?_saved`. All that is written
is plain (`isPlain_saved`), and so every state is restored from its text, whatever cells it lists:
`ofText?_text`.
-/

namespace Microcomputer

namespace Snapshot

open Json (IsPlainName record name natural)

/-! ## Reading what was written -/

theorem byte?_byte (b : UInt8) : (byte b).byte? = some b := Json.byte?_natural b

/-- A record of these fields in order is read as its members, last first. -/
theorem fields?_names {names : List String} {members : List (String × Json)}
    (hnames : members.map Prod.fst = names) (hplain : (∀ n ∈ names, IsPlainName n) ∧ names.Nodup) :
    fields? names (record members) = some members.reverse :=
  Json.fields?_record hnames hplain.1 hplain.2

theorem oneByte?_record {α : Type} (build : UInt8 → α) (key : String) (hplain : IsPlainName key)
    (b : UInt8) : oneByte? build key (record [(key, byte b)]) = some (build b) := by
  have hfields : fields? [key] (record [(key, byte b)]) = _ :=
    fields?_names rfl ⟨List.forall_mem_singleton.mpr hplain, List.pairwise_singleton _ key⟩
  simp [oneByte?, hfields, Json.field?, byte?_byte]

theorem twoBytes?_record {α : Type} (build : UInt8 → UInt8 → α) (first second : String)
    (hplain : (∀ n ∈ [first, second], IsPlainName n) ∧ [first, second].Nodup) (a b : UInt8) :
    twoBytes? build first second (record [(first, byte a), (second, byte b)]) = some (build a b) := by
  have hfields : fields? [first, second] (record [(first, byte a), (second, byte b)]) = _ :=
    fields?_names rfl hplain
  have hne : (first == second) = false := by simpa using hplain.2
  simp [twoBytes?, hfields, Json.field?, byte?_byte, List.lookup_cons, hne]

theorem bank?_bank (bank : Vector UInt8 8) : bank? (.array (bank.toList.map byte)) = some bank := by
  rw [bank?, Json.list?_array byte?_byte]
  exact dif_pos Vector.length_toList

theorem registers?_registers (r : RegisterFile) : registers? (registers r) = some r := by
  have hfields : fields? ["gpr", "pc", "ir", "fl"] (registers r) = _ := fields?_names rfl (by decide)
  simp [registers?, hfields, Json.field?, bank?_bank, byte?_byte, List.lookup_cons]

theorem runState?_runState (s : RunState) : runState? (runState s) = some s := by
  cases s <;> rfl

theorem fault?_fault (f : Fault) : fault? (fault f) = some f := by
  cases f with
  | notRunning s =>
    show (runState? (runState s)).map Fault.notRunning = _
    rw [runState?_runState, Option.map_some]
  | invalidOpcode a op => exact twoBytes?_record Fault.invalidOpcode "address" "opcode" (by decide) a op
  | invalidRegister a r => exact twoBytes?_record Fault.invalidRegister "address" "operand" (by decide) a r
  | divisionByZero a => exact oneByte?_record Fault.divisionByZero "address" (by decide) a
  | stackOverflow sp => exact oneByte?_record Fault.stackOverflow "sp" (by decide) sp
  | stackUnderflow sp => exact oneByte?_record Fault.stackUnderflow "sp" (by decide) sp

theorem aluOp?_name (op : AluOp) : aluOp? (name (aluOpName op)) = some op := by
  cases op <;> rfl

theorem condition?_name (c : Condition) : condition? (name (conditionName c)) = some c := by
  cases c <;> rfl

theorem alu?_record (op : AluOp) (a b : UInt8) :
    alu? (record [("op", name (aluOpName op)), ("a", byte a), ("b", byte b)]) = some (.alu op a b) := by
  have hfields : fields? ["op", "a", "b"]
      (record [("op", name (aluOpName op)), ("a", byte a), ("b", byte b)]) = _ :=
    fields?_names rfl (by decide)
  simp [alu?, hfields, Json.field?, aluOp?_name, byte?_byte, List.lookup_cons]

theorem jump?_record (c : Condition) (r : UInt8) :
    jump? (record [("cond", name (conditionName c)), ("reg", byte r)]) = some (.jump c r) := by
  have hfields : fields? ["cond", "reg"] (record [("cond", name (conditionName c)), ("reg", byte r)]) = _ :=
    fields?_names rfl (by decide)
  simp [jump?, hfields, Json.field?, condition?_name, byte?_byte, List.lookup_cons]

theorem instruction?_instruction (i : Instruction UInt8) : instruction? (instruction i) = some i := by
  cases i with
  | nop | halt | ret | interruptReturn => rfl
  | loadImmediate r v => exact twoBytes?_record Instruction.loadImmediate "reg" "imm" (by decide) r v
  | load r a => exact twoBytes?_record Instruction.load "dst" "addr" (by decide) r a
  | store a r => exact twoBytes?_record Instruction.store "addr" "src" (by decide) a r
  | alu op a b => exact alu?_record op a b
  | addImmediate r v => exact twoBytes?_record Instruction.addImmediate "reg" "imm" (by decide) r v
  | push r => exact oneByte?_record Instruction.push "reg" (by decide) r
  | pop r => exact oneByte?_record Instruction.pop "reg" (by decide) r
  | call r => exact oneByte?_record Instruction.call "reg" (by decide) r
  | jump c r => exact jump?_record c r
  | interrupt r => exact oneByte?_record Instruction.interrupt "reg" (by decide) r
  | printNumber r => exact oneByte?_record Instruction.printNumber "reg" (by decide) r
  | printChar r => exact oneByte?_record Instruction.printChar "reg" (by decide) r
  | printText a b => exact twoBytes?_record Instruction.printText "start" "end" (by decide) a b

theorem cells?_cells (values : List UInt8) : cells? (cells values) = some values := by
  have hfields : fields? ["cells"] (cells values) = _ := fields?_names rfl (by decide)
  simp [cells?, hfields, Json.field?, Json.list?_array byte?_byte]

theorem interrupts?_interrupts (c : InterruptController) : interrupts? (interrupts c) = some c := by
  have hfields : fields? ["status", "servicing"] (interrupts c) = _ := fields?_names rfl (by decide)
  simp [interrupts?, hfields, Json.field?, byte?_byte, Json.bool?_bool, List.lookup_cons]

/-- What is written for something is not taken for nothing. -/
theorem optional?_optional {α : Type} {read? : Json → Option α} {write : α → Json}
    (hread : ∀ a, read? (write a) = some a) (hnull : ∀ a, (write a).isNull = false) (a : Option α) :
    Json.optional? read? (optional write a) = some a := by
  cases a with
  | none => rfl
  | some a =>
    show (if (write a).isNull then some none else (read? (write a)).map some) = _
    rw [hnull, hread]
    rfl

theorem isNull_fault (f : Fault) : (fault f).isNull = false := by
  cases f <;> rfl

theorem isNull_instruction (i : Instruction UInt8) : (instruction i).isNull = false := by
  cases i <;> rfl

/-- A state is read back whole. -/
theorem saved?_saved (s : SavedProcessor) : saved? (saved s) = some s := by
  obtain ⟨p, values, hapart⟩ := s
  have hfields : fields? processorFields (saved ⟨p, values, hapart⟩) = _ := fields?_names rfl (by decide)
  simp [saved?, hfields, Json.field?, Json.fieldOr?, List.lookup_cons, registers?_registers,
    cells?_cells, interrupts?_interrupts, runState?_runState, Json.word64?_natural, byte?_byte,
    optional?_optional fault?_fault isNull_fault,
    optional?_optional instruction?_instruction isNull_instruction, ← hapart]

/-! ## Plain texts -/

theorem isPlain_byte (b : UInt8) : (byte b).IsPlain := Json.isPlain_natural b.toNat

theorem isPlain_bytes (bytes : List UInt8) : (Json.array (bytes.map byte)).IsPlain :=
  Json.isPlain_array (List.forall_mem_map.mpr fun b _ => isPlain_byte b)

theorem isPlain_runState (s : RunState) : (runState s).IsPlain :=
  Json.isPlain_name (by cases s <;> decide)

theorem isPlain_single {key : String} (hkey : IsPlainName key) {v : Json} (hv : v.IsPlain) :
    (record [(key, v)]).IsPlain :=
  Json.isPlain_record (List.forall_mem_singleton.mpr hkey) (List.forall_mem_singleton.mpr hv)

theorem isPlain_pair {first second : String} (hplain : ∀ n ∈ [first, second], IsPlainName n) {v w : Json}
    (hv : v.IsPlain) (hw : w.IsPlain) : (record [(first, v), (second, w)]).IsPlain :=
  Json.isPlain_record hplain (List.forall_mem_cons.mpr ⟨hv, List.forall_mem_singleton.mpr hw⟩)

theorem isPlain_oneByte {key field : String} (hkey : IsPlainName key) (hfield : IsPlainName field)
    (b : UInt8) : (variant key [(field, byte b)]).IsPlain :=
  isPlain_single hkey (isPlain_single hfield (isPlain_byte b))

theorem isPlain_twoBytes {key first second : String} (hkey : IsPlainName key)
    (hfields : ∀ n ∈ [first, second], IsPlainName n) (a b : UInt8) :
    (variant key [(first, byte a), (second, byte b)]).IsPlain :=
  isPlain_single hkey (isPlain_pair hfields (isPlain_byte a) (isPlain_byte b))

theorem isPlain_fault (f : Fault) : (fault f).IsPlain := by
  cases f with
  | notRunning s => exact isPlain_single (by decide) (isPlain_runState s)
  | invalidOpcode | invalidRegister => exact isPlain_twoBytes (by decide) (by decide) _ _
  | divisionByZero | stackOverflow | stackUnderflow => exact isPlain_oneByte (by decide) (by decide) _

theorem isPlain_instruction (i : Instruction UInt8) : (instruction i).IsPlain := by
  cases i with
  | nop | halt | ret | interruptReturn => exact Json.isPlain_name (by decide)
  | alu op a b =>
    have hop : (name (aluOpName op)).IsPlain := Json.isPlain_name (by cases op <;> decide)
    have hnames : ∀ n ∈ ["op", "a", "b"], IsPlainName n := by decide
    refine isPlain_single (by decide) (Json.isPlain_record hnames ?_)
    exact List.forall_mem_cons.mpr ⟨hop, List.forall_mem_cons.mpr
      ⟨isPlain_byte a, List.forall_mem_singleton.mpr (isPlain_byte b)⟩⟩
  | jump c r =>
    have hcondition : (name (conditionName c)).IsPlain := Json.isPlain_name (by cases c <;> decide)
    exact isPlain_single (by decide) (isPlain_pair (by decide) hcondition (isPlain_byte r))
  | loadImmediate | load | store | addImmediate | printText =>
    exact isPlain_twoBytes (by decide) (by decide) _ _
  | push | pop | call | interrupt | printNumber | printChar =>
    exact isPlain_oneByte (by decide) (by decide) _

theorem isPlain_optional {α : Type} {write : α → Json} (h : ∀ a, (write a).IsPlain) (a : Option α) :
    (optional write a).IsPlain := by
  cases a with
  | none => exact Json.isPlain_null
  | some a => exact h a

theorem isPlain_registers (r : RegisterFile) : (registers r).IsPlain := by
  have hnames : ∀ n ∈ ["gpr", "pc", "ir", "fl"], IsPlainName n := by decide
  refine Json.isPlain_record hnames ?_
  simp only [List.map_cons, List.map_nil, List.forall_mem_cons]
  exact ⟨isPlain_bytes _, isPlain_byte _, isPlain_byte _, isPlain_byte _, List.forall_mem_nil _⟩

/-- What is written of a state needs no escapes, and its words are all numbers or literals. -/
theorem isPlain_saved (s : SavedProcessor) : (saved s).IsPlain := by
  have hnames : ∀ n ∈ processorFields, IsPlainName n := by decide
  refine Json.isPlain_record hnames ?_
  simp only [List.map_cons, List.map_nil, List.forall_mem_cons]
  exact ⟨isPlain_registers _, isPlain_single (by decide) (isPlain_bytes _),
    isPlain_pair (by decide) (isPlain_byte _) (Json.isPlain_bool _), isPlain_runState _,
    Json.isPlain_natural _, isPlain_optional isPlain_fault _, isPlain_byte _,
    isPlain_optional isPlain_instruction _, List.forall_mem_nil _⟩

end Snapshot

/-- A state, whatever cells it lists, is restored from its text. -/
theorem SavedProcessor.ofText?_text (s : SavedProcessor) : ofText? s.text = some s := by
  rw [text, ofText?, Json.ofText?_compact (Snapshot.isPlain_saved s)]
  exact Snapshot.saved?_saved s

end Microcomputer
