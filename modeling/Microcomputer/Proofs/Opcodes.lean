import Microcomputer.Fetch

/-!
The opcodes that there are, and what the bytes after each of them stand for.

`Opcode.table` lists them. Decoding is described by the table alone: `decode_eq_invalidOpcode_iff` and
`decode_eq_invalidRegister_iff` say when it fails and how, and `opcode_of_decode` that what is decoded has the
opcode it was decoded from.
-/

namespace Microcomputer

/-- What a byte after an opcode stands for. -/
inductive Operand
  | register
  | immediate
  deriving DecidableEq, Repr

namespace Opcode

/-- The opcodes with their operands. -/
def table : List (UInt8 × List Operand) :=
  [(0x00, []), (0x01, []), (0x11, []), (0x13, []),
   (0x45, [.register]), (0x46, [.register]), (0x47, [.register]), (0x48, [.register]),
   (0x49, [.register, .register]), (0x50, [.register]), (0x52, [.register]),
   (0x54, [.register]), (0x55, [.register]), (0x56, [.register]), (0x57, [.register]),
   (0x58, [.register]), (0x59, [.register]), (0x5A, [.register]),
   (0x65, [.register]), (0x66, [.register]), (0x69, [.register]),
   (0x82, [.register, .immediate]), (0x83, [.register, .register]), (0x84, [.register, .register]),
   (0xA0, [.register, .register]), (0xA1, [.register, .register]), (0xA2, [.register, .register]),
   (0xA3, [.register, .register]), (0xA4, [.register, .register]), (0xA6, [.register, .immediate]),
   (0xA7, [.register, .register]), (0xA8, [.register, .register]), (0xAA, [.register, .register]),
   (0xAB, [.register, .register]), (0xAC, [.register, .register]), (0xAD, [.register, .register])]

/-- The operands of an opcode, if it is one. -/
def operands? (op : UInt8) : Option (List Operand) := table.lookup op

end Opcode

/-- The first of the operand bytes, in order, that stands for a register and exceeds 7. -/
def strayRegister? (operands : List Operand) (bytes : List UInt8) : Option UInt8 :=
  ((operands.zip bytes).find? fun (operand, b) => operand = .register ∧ 7 < b.toNat).map Prod.snd

theorem strayRegister?_cons_register (operands : List Operand) (b : UInt8) (bytes : List UInt8) :
    strayRegister? (.register :: operands) (b :: bytes) =
      if 7 < b.toNat then some b else strayRegister? operands bytes := by
  unfold strayRegister?
  rw [List.zip_cons_cons, List.find?_cons]
  by_cases h : 7 < b.toNat <;> simp [h]

theorem strayRegister?_cons_immediate (operands : List Operand) (b : UInt8) (bytes : List UInt8) :
    strayRegister? (.immediate :: operands) (b :: bytes) = strayRegister? operands bytes := by
  unfold strayRegister?
  rw [List.zip_cons_cons, List.find?_cons]
  simp

theorem strayRegister?_nil (bytes : List UInt8) : strayRegister? [] bytes = none := rfl

theorem Register.ofOperand_cases (b : UInt8) :
    (7 < b.toNat ∧ ofOperand b = .error (.invalidRegister b)) ∨
      (¬7 < b.toNat ∧ ∃ r, ofOperand b = .ok r) := by
  cases hb : ofByte? b with
  | none => exact .inl ⟨(ofByte?_eq_none_iff b).mp hb, by rw [ofOperand, hb]⟩
  | some r =>
    right
    refine ⟨?_, r, by rw [ofOperand, hb]⟩
    rw [← ofByte?_eq_none_iff, hb]
    simp

namespace Form

def operands : Form → List Operand
  | bare _ => []
  | register _ => [.register]
  | registerAndByte _ => [.register, .immediate]
  | twoRegisters _ => [.register, .register]

/-- Whatever the form builds has the opcode. -/
def Builds (op : UInt8) : Form → Prop
  | bare i => i.opcode = op
  | register build => ∀ r, (build r).opcode = op
  | registerAndByte build => ∀ r v, (build r v).opcode = op
  | twoRegisters build => ∀ r s, (build r s).opcode = op

/-- Reading reports the first stray register, or builds an instruction if there is none. -/
theorem read_cases (form : Form) (a b : UInt8) :
    (∃ r, strayRegister? form.operands [a, b] = some r ∧ form.read a b = .error (.invalidRegister r)) ∨
      (strayRegister? form.operands [a, b] = none ∧
        ∃ i, form.read a b = .ok i ∧ ∀ op, form.Builds op → i.opcode = op) := by
  cases form with
  | bare i => exact .inr ⟨rfl, i, rfl, fun op h => h⟩
  | register build =>
    rw [operands, strayRegister?_cons_register, strayRegister?_nil, read]
    rcases Register.ofOperand_cases a with ⟨ha, hr⟩ | ⟨ha, r, hr⟩
    · rw [hr]
      exact .inl ⟨a, if_pos ha, rfl⟩
    · rw [hr]
      exact .inr ⟨if_neg ha, build r, rfl, fun op h => h r⟩
  | registerAndByte build =>
    rw [operands, strayRegister?_cons_register, strayRegister?_cons_immediate, strayRegister?_nil, read]
    rcases Register.ofOperand_cases a with ⟨ha, hr⟩ | ⟨ha, r, hr⟩
    · rw [hr]
      exact .inl ⟨a, if_pos ha, rfl⟩
    · rw [hr]
      exact .inr ⟨if_neg ha, build r b, rfl, fun op h => h r b⟩
  | twoRegisters build =>
    rw [operands, strayRegister?_cons_register, strayRegister?_cons_register, strayRegister?_nil, read]
    rcases Register.ofOperand_cases a with ⟨ha, hr⟩ | ⟨ha, r, hr⟩
    · rw [hr]
      exact .inl ⟨a, if_pos ha, rfl⟩
    · rw [hr, if_neg ha]
      rcases Register.ofOperand_cases b with ⟨hb, hs⟩ | ⟨hb, s, hs⟩
      · rw [hs]
        exact .inl ⟨b, if_pos hb, rfl⟩
      · rw [hs]
        exact .inr ⟨if_neg hb, build r s, rfl, fun op h => h r s⟩

end Form

namespace Opcode

/-- The table lists exactly the opcodes that are decoded, with the operands that are read for them. -/
theorem operands_form? (op : UInt8) : (form? op).map Form.operands = operands? op := by
  have hall : ∀ k < 256, (form? (UInt8.ofNat k)).map Form.operands = operands? (UInt8.ofNat k) := by
    decide +kernel
  have h := hall op.toNat op.toNat_lt
  rw [UInt8.ofNat_toNat] at h
  exact h

theorem builds_of_form? {op : UInt8} {form : Form} (h : form? op = some form) : form.Builds op := by
  unfold form? at h
  split at h
  all_goals cases h
  all_goals
    next hop =>
      rw [← UInt8.ofNat_toNat (x := op), hop]
      simp [Form.Builds, unary, binary, jump, Instruction.opcode, ofAluOp, ofCondition, printText]

end Opcode

namespace Instruction

theorem decode_of_unknown {op : UInt8} (h : Opcode.operands? op = none) (a b : UInt8) :
    decode op a b = .error (.invalidOpcode op) := by
  rw [← Opcode.operands_form?, Option.map_eq_none_iff] at h
  rw [decode, h]

theorem decode_of_known {op : UInt8} {operands : List Operand} (h : Opcode.operands? op = some operands)
    (a b : UInt8) :
    (∃ r, strayRegister? operands [a, b] = some r ∧ decode op a b = .error (.invalidRegister r)) ∨
      (strayRegister? operands [a, b] = none ∧ ∃ i, decode op a b = .ok i ∧ i.opcode = op) := by
  rw [← Opcode.operands_form?, Option.map_eq_some_iff] at h
  obtain ⟨form, hform, rfl⟩ := h
  rw [decode, hform]
  rcases form.read_cases a b with hstray | ⟨hnone, i, hi, hop⟩
  · exact .inl hstray
  · exact .inr ⟨hnone, i, hi, hop op (Opcode.builds_of_form? hform)⟩

/-- A byte is refused as an opcode exactly if the table does not list it. -/
theorem decode_eq_invalidOpcode_iff (op a b o : UInt8) :
    decode op a b = .error (.invalidOpcode o) ↔ o = op ∧ Opcode.operands? op = none := by
  cases h : Opcode.operands? op with
  | none =>
    rw [decode_of_unknown h]
    simp [eq_comm]
  | some operands =>
    rcases decode_of_known h a b with ⟨r, -, hr⟩ | ⟨-, i, hi, -⟩
    · simp [hr]
    · simp [hi]

/-- Of the operands, the first stray register is reported. -/
theorem decode_eq_invalidRegister_iff (op a b r : UInt8) :
    decode op a b = .error (.invalidRegister r) ↔
      ∃ operands, Opcode.operands? op = some operands ∧ strayRegister? operands [a, b] = some r := by
  cases h : Opcode.operands? op with
  | none =>
    rw [decode_of_unknown h]
    simp
  | some operands =>
    rcases decode_of_known h a b with ⟨s, hs, hdecode⟩ | ⟨hnone, i, hi, -⟩
    · simp [hs, hdecode]
    · simp [hnone, hi]

/-- A decoded instruction has the opcode that it was decoded from. -/
theorem opcode_of_decode {op a b : UInt8} {i : Instruction Register} (h : decode op a b = .ok i) :
    i.opcode = op := by
  cases hop : Opcode.operands? op with
  | none =>
    rw [decode_of_unknown hop] at h
    cases h
  | some operands =>
    rcases decode_of_known hop a b with ⟨r, -, hr⟩ | ⟨-, j, hj, hopcode⟩
    · rw [hr] at h
      cases h
    · rw [hj] at h
      cases h
      exact hopcode

end Instruction

end Microcomputer
