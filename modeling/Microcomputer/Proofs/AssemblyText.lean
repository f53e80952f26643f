import Mathlib.Data.List.Basic
import Microcomputer.Instruction.Assembly
import Microcomputer.Proofs.Columns

/-!
Assembly text, read back.

`words` takes the text of an instruction apart: its mnemonic, and then its operands, if it has any, with commas
between them (`toList_assembly`). `ofAssembly?` puts an instruction together again from such words.

* `ofAssembly?_assembly`: from its text it reads the instruction, but for an operand that is not encoded and
  does not show in the text.
* `fits_assembly`: a text fits into the column that listings have for it, on one line, and does not end with a
  blank.
-/

namespace Microcomputer

namespace Instruction

/-! ## The words of a text -/

def mnemonic : Instruction UInt8 → String
  | nop => "NOP"
  | halt => "HLT"
  | ret => "RET"
  | interruptReturn => "IRET"
  | loadImmediate .. => "LDI"
  | load .. => "LD"
  | store .. => "ST"
  | alu op .. => op.mnemonic
  | addImmediate .. => "ADDI"
  | push _ => "PUSH"
  | pop _ => "POP"
  | call _ => "CALL"
  | jump c _ => c.mnemonic
  | interrupt _ => "INT"
  | printNumber _ => "PRN"
  | printChar _ => "PRA"
  | printText .. => "PRM"

def numberWord (v : UInt8) : List Char := Nat.toDigits 10 v.toNat

def registerWord (r : UInt8) : List Char := 'R' :: numberWord r

/-- The operands, each as it stands in the text. -/
def operandWords : Instruction UInt8 → List (List Char)
  | nop | halt | ret | interruptReturn => []
  | loadImmediate r v | addImmediate r v => [registerWord r, numberWord v]
  | push r | pop r | call r | jump _ r | interrupt r | printNumber r | printChar r => [registerWord r]
  | load a b | store a b | printText a b => [registerWord a, registerWord b]
  | alu op a b => if op.isUnary then [registerWord a] else [registerWord a, registerWord b]

/-- The words between the blanks of the text. -/
def words (i : Instruction UInt8) : List (List Char) :=
  match i.operandWords with
  | [] => [i.mnemonic.toList]
  | operands => [i.mnemonic.toList, [','].intercalate operands]

theorem toList_number (v : UInt8) : (toString v.toNat).toList = numberWord v := by
  rw [Nat.toString_eq_ofList_toDigits, String.toList_ofList]
  rfl

theorem words_cases (i : Instruction UInt8) :
    (i.operandWords = [] ∧ i.words = [i.mnemonic.toList]) ∨
      (i.operandWords ≠ [] ∧ i.words = [i.mnemonic.toList, [','].intercalate i.operandWords]) := by
  unfold words
  cases hwords : i.operandWords with
  | nil => exact .inl ⟨rfl, rfl⟩
  | cons operand rest => exact .inr ⟨List.cons_ne_nil _ _, rfl⟩

theorem toList_register (r : UInt8) : ("R" ++ toString r.toNat).toList = registerWord r := by
  rw [String.toList_append, toList_number, registerWord]
  exact List.singleton_append

theorem toList_oneOperand (mnemonic : String) (r : UInt8) :
    (mnemonic ++ " " ++ ("R" ++ toString r.toNat)).toList =
      [' '].intercalate [mnemonic.toList, [','].intercalate [registerWord r]] := by
  rw [String.toList_append, String.toList_append, toList_register]
  simp

theorem toList_twoOperands (mnemonic : String) (a b : UInt8) :
    (mnemonic ++ " " ++ ("R" ++ toString a.toNat) ++ "," ++ ("R" ++ toString b.toNat)).toList =
      [' '].intercalate [mnemonic.toList, [','].intercalate [registerWord a, registerWord b]] := by
  rw [String.toList_append, String.toList_append, String.toList_append, String.toList_append,
    toList_register, toList_register]
  simp

theorem toList_immediate (mnemonic : String) (r v : UInt8) :
    (mnemonic ++ " " ++ ("R" ++ toString r.toNat) ++ "," ++ toString v.toNat).toList =
      [' '].intercalate [mnemonic.toList, [','].intercalate [registerWord r, numberWord v]] := by
  rw [String.toList_append, String.toList_append, String.toList_append, String.toList_append,
    toList_register, toList_number]
  simp

theorem toList_assembly (i : Instruction UInt8) : i.assembly.toList = [' '].intercalate i.words := by
  cases i with
  | nop | halt | ret | interruptReturn => rfl
  | loadImmediate r v | addImmediate r v => exact toList_immediate _ r v
  | load a b | store a b | printText a b => exact toList_twoOperands _ a b
  | push r | pop r | call r | jump c r | interrupt r | printNumber r | printChar r =>
    exact toList_oneOperand _ r
  | alu op a b =>
    cases op with
    | inc | dec | not => exact toList_oneOperand _ a
    | _ => exact toList_twoOperands _ a b

/-! ## Characters and widths -/

def mnemonics : List String :=
  ["NOP", "HLT", "RET", "IRET", "LDI", "LD", "ST", "ADDI", "PUSH", "POP", "CALL", "INT", "PRN", "PRA", "PRM"] ++
    ["JMP", "JEQ", "JNE", "JGT", "JLT", "JLE", "JGE"] ++ AluOp.all.map AluOp.mnemonic

theorem mnemonic_mem (i : Instruction UInt8) : i.mnemonic ∈ mnemonics := by
  cases i with
  | alu op a b => cases op <;> simp [mnemonic, mnemonics, AluOp.all, AluOp.mnemonic]
  | jump c r => cases c <;> simp [mnemonic, mnemonics, Condition.mnemonic]
  | _ => simp [mnemonic, mnemonics]

/-- A mnemonic is a word of at most four capital letters. -/
theorem mnemonic_bounds (i : Instruction UInt8) :
    i.mnemonic.toList ≠ [] ∧ i.mnemonic.toList.length ≤ 4 ∧ ∀ c ∈ i.mnemonic.toList, c.isUpper := by
  have hall : ∀ m ∈ mnemonics, m.toList ≠ [] ∧ m.toList.length ≤ 4 ∧ m.toList.all Char.isUpper := by decide
  obtain ⟨hsome, hshort, hupper⟩ := hall _ i.mnemonic_mem
  exact ⟨hsome, hshort, List.all_eq_true.mp hupper⟩

theorem isDigit_of_mem_numberWord {v : UInt8} {c : Char} (h : c ∈ numberWord v) : c.isDigit :=
  Nat.isDigit_of_mem_toDigits (by decide) (by decide) h

theorem length_numberWord_le (v : UInt8) : (numberWord v).length ≤ 3 := by
  have hv := v.toNat_lt
  rw [numberWord, Nat.length_toDigits_le_iff (by decide) (by decide)]
  omega

theorem numberWord_ne_nil (v : UInt8) : numberWord v ≠ [] := Nat.toDigits_ne_nil

/-- A word of at most four letters and digits. -/
structure IsOperand (word : List Char) : Prop where
  nonempty : word ≠ []
  short : word.length ≤ 4
  plain : ∀ c ∈ word, c = 'R' ∨ c.isDigit

theorem isOperand_numberWord (v : UInt8) : IsOperand (numberWord v) where
  nonempty := numberWord_ne_nil v
  short := Nat.le_succ_of_le (length_numberWord_le v)
  plain := fun _ hc => .inr (isDigit_of_mem_numberWord hc)

theorem isOperand_registerWord (r : UInt8) : IsOperand (registerWord r) where
  nonempty := List.cons_ne_nil _ _
  short := Nat.succ_le_succ (length_numberWord_le r)
  plain := List.forall_mem_cons.mpr ⟨.inl rfl, (isOperand_numberWord r).plain⟩

theorem isOperand_of_mem {i : Instruction UInt8} {word : List Char} (h : word ∈ i.operandWords) :
    IsOperand word := by
  have hword : ∃ b, word = registerWord b ∨ word = numberWord b := by
    cases i <;> simp only [operandWords] at h <;> grind
  obtain ⟨b, rfl | rfl⟩ := hword
  · exact isOperand_registerWord b
  · exact isOperand_numberWord b

theorem length_operandWords_le (i : Instruction UInt8) : i.operandWords.length ≤ 2 := by
  cases i <;> simp only [operandWords] <;> grind

theorem ne_of_isOperand {word : List Char} (h : IsOperand word) {c : Char} (hc : c ∈ word) :
    c ≠ ' ' ∧ c ≠ ',' ∧ c ≠ '\n' ∧ c ≠ '\r' := by
  rcases h.plain c hc with rfl | hdigit
  · decide
  · refine ⟨?_, ?_, ?_, ?_⟩ <;> rintro rfl <;> cases hdigit

theorem ne_of_mem_mnemonic {i : Instruction UInt8} {c : Char} (hc : c ∈ i.mnemonic.toList) :
    c ≠ ' ' ∧ c ≠ '\n' ∧ c ≠ '\r' := by
  have hupper := i.mnemonic_bounds.2.2 c hc
  refine ⟨?_, ?_, ?_⟩ <;> rintro rfl <;> cases hupper

theorem ne_of_mem_words {i : Instruction UInt8} {word : List Char} (h : word ∈ i.words) :
    ∀ c ∈ word, c ≠ ' ' ∧ c ≠ '\n' ∧ c ≠ '\r' := by
  have hword : word = i.mnemonic.toList ∨ word = [','].intercalate i.operandWords := by
    rcases i.words_cases with ⟨-, hwords⟩ | ⟨-, hwords⟩
    · exact .inl (List.mem_singleton.mp (hwords ▸ h))
    · exact (List.mem_cons.mp (hwords ▸ h)).imp_right List.mem_singleton.mp
  rcases hword with rfl | rfl
  · exact fun c hc => ne_of_mem_mnemonic hc
  · have hcomma : ∀ c ∈ [','], c ≠ ' ' ∧ c ≠ '\n' ∧ c ≠ '\r' := List.forall_mem_singleton.mpr (by decide)
    refine Text.forall_mem_intercalate hcomma fun operand ho c hc => ?_
    obtain ⟨hblank, -, hbreaks⟩ := ne_of_isOperand (isOperand_of_mem ho) hc
    exact ⟨hblank, hbreaks⟩

theorem operands_bounds {i : Instruction UInt8} (h : i.operandWords ≠ []) :
    [','].intercalate i.operandWords ≠ [] ∧ ([','].intercalate i.operandWords).length ≤ 9 := by
  have hlength := i.length_operandWords_le
  have hword : ∀ word ∈ i.operandWords, IsOperand word := fun _ hmem => isOperand_of_mem hmem
  match hwords : i.operandWords, h, hlength with
  | [a], _, _ =>
    have ha := hword a (hwords ▸ List.mem_cons_self)
    rw [List.intercalate_singleton]
    exact ⟨ha.nonempty, Nat.le_trans ha.short (by decide)⟩
  | [a, b], _, _ =>
    have ha := (hword a (hwords ▸ List.mem_cons_self)).short
    have hb := (hword b (hwords ▸ List.mem_cons_of_mem _ List.mem_cons_self)).short
    rw [List.intercalate_cons_cons, List.intercalate_singleton]
    refine ⟨by simp, ?_⟩
    simp only [List.length_append, List.length_singleton]
    omega

/-- A text fits into the column that there is for it, with blanks left only within. -/
theorem fits_assembly (i : Instruction UInt8) : Text.FitsColumn 14 i.assembly.toList := by
  have hplain : ∀ word ∈ i.words, ∀ c ∈ word, c ≠ ' ' ∧ c ≠ '\n' ∧ c ≠ '\r' :=
    fun _ h => ne_of_mem_words h
  have hended {word : List Char} (hmem : word ∈ i.words) : word.getLast? ≠ some ' ' :=
    fun hlast => (hplain word hmem ' ' (List.mem_of_getLast? hlast)).1 rfl
  obtain ⟨-, hmnemonic, -⟩ := i.mnemonic_bounds
  have hunbroken : Text.Unbroken i.assembly.toList := by
    rw [toList_assembly]
    have hblank : Text.Unbroken [' '] := by decide
    exact Text.forall_mem_intercalate hblank fun word h c hc => (hplain word h c hc).2
  rcases i.words_cases with ⟨-, hwords⟩ | ⟨hsome, hwords⟩
  · have hchars : i.assembly.toList = i.mnemonic.toList := by
      rw [toList_assembly, hwords, List.intercalate_singleton]
    refine ⟨?_, hunbroken, ?_⟩
    · rw [hchars]
      omega
    · rw [hchars]
      exact hended (hwords ▸ List.mem_cons_self)
  · obtain ⟨hne, hoperands⟩ := operands_bounds hsome
    have hchars : i.assembly.toList =
        i.mnemonic.toList ++ [' '] ++ [','].intercalate i.operandWords := by
      rw [toList_assembly, hwords, List.intercalate_cons_cons, List.intercalate_singleton]
    refine ⟨?_, hunbroken, ?_⟩
    · rw [hchars, List.length_append, List.length_append, List.length_singleton]
      omega
    · rw [hchars, List.getLast?_append_of_ne_nil _ hne]
      exact hended (hwords ▸ List.mem_cons_of_mem _ List.mem_cons_self)

/-! ## Reading a text -/

/-- The operand that an instruction carries but does not encode. -/
def unread? {ρ : Type} : Instruction ρ → Option ρ
  | alu op _ b => if op.isUnary then some b else none
  | _ => none

/-- A byte in decimal. -/
def readNumber? (word : List Char) : Option UInt8 :=
  let value := Nat.ofDigitChars 10 word 0
  if word ≠ [] ∧ word.all Char.isDigit ∧ value < 256 then some (UInt8.ofNat value) else none

def readRegister? : List Char → Option UInt8
  | 'R' :: digits => readNumber? digits
  | _ => none

def bare : List (String × Instruction UInt8) :=
  [("NOP", nop), ("HLT", halt), ("RET", ret), ("IRET", interruptReturn)]

def ofRegister (r : UInt8) : List (String × Instruction UInt8) :=
  [("PUSH", push r), ("POP", pop r), ("CALL", call r), ("INT", interrupt r), ("PRN", printNumber r),
    ("PRA", printChar r), ("INC", alu .inc r 0), ("DEC", alu .dec r 0), ("NOT", alu .not r 0),
    ("JMP", jump .always r), ("JEQ", jump .equal r), ("JNE", jump .notEqual r), ("JGT", jump .greater r),
    ("JLT", jump .less r), ("JLE", jump .lessOrEqual r), ("JGE", jump .greaterOrEqual r)]

def ofTwoRegisters (a b : UInt8) : List (String × Instruction UInt8) :=
  [("LD", load a b), ("ST", store a b), ("PRM", printText a b), ("ADD", alu .add a b), ("SUB", alu .sub a b),
    ("MUL", alu .mul a b), ("DIV", alu .div a b), ("MOD", alu .mod a b), ("AND", alu .and a b),
    ("OR", alu .or a b), ("XOR", alu .xor a b), ("SHL", alu .shl a b), ("SHR", alu .shr a b),
    ("CMP", alu .cmp a b)]

def ofRegisterAndNumber (r v : UInt8) : List (String × Instruction UInt8) :=
  [("LDI", loadImmediate r v), ("ADDI", addImmediate r v)]

/-- The instruction of a mnemonic and the words of its operands. -/
def ofWords? (mnemonic : List Char) (operands : List (List Char)) : Option (Instruction UInt8) :=
  match operands with
  | [] => bare.lookup (String.ofList mnemonic)
  | [r] => do (ofRegister (← readRegister? r)).lookup (String.ofList mnemonic)
  | [a, b] => do
    let a ← readRegister? a
    match readRegister? b with
    | some b => (ofTwoRegisters a b).lookup (String.ofList mnemonic)
    | none => (ofRegisterAndNumber a (← readNumber? b)).lookup (String.ofList mnemonic)
  | _ => none

/-- The instruction that a text writes. -/
def ofAssembly? (text : String) : Option (Instruction UInt8) :=
  match text.toList.splitOn ' ' with
  | [mnemonic] => ofWords? mnemonic []
  | [mnemonic, operands] => ofWords? mnemonic (operands.splitOn ',')
  | _ => none

theorem readNumber?_numberWord (v : UInt8) : readNumber? (numberWord v) = some v := by
  have hvalue : Nat.ofDigitChars 10 (numberWord v) 0 = v.toNat := Nat.ofDigitChars_ten_toDigits
  have hdigits : (numberWord v).all Char.isDigit = true :=
    List.all_eq_true.mpr fun _ hc => isDigit_of_mem_numberWord hc
  rw [readNumber?, hvalue, UInt8.ofNat_toNat]
  exact if_pos ⟨numberWord_ne_nil v, hdigits, v.toNat_lt⟩

theorem readRegister?_registerWord (r : UInt8) : readRegister? (registerWord r) = some r :=
  readNumber?_numberWord r

theorem readRegister?_numberWord (v : UInt8) : readRegister? (numberWord v) = none := by
  unfold readRegister?
  split
  · next digits hword =>
    have hdigit := isDigit_of_mem_numberWord (v := v) (hword ▸ List.mem_cons_self)
    cases hdigit
  · rfl

section

variable {m : String} {i : Instruction UInt8}

theorem ofWords?_register {r : UInt8} (h : (ofRegister r).lookup m = some i) :
    ofWords? m.toList [registerWord r] = some i := by
  simp only [ofWords?, readRegister?_registerWord, String.ofList_toList]
  exact h

theorem ofWords?_twoRegisters {a b : UInt8} (h : (ofTwoRegisters a b).lookup m = some i) :
    ofWords? m.toList [registerWord a, registerWord b] = some i := by
  simp only [ofWords?, readRegister?_registerWord, String.ofList_toList]
  exact h

theorem ofWords?_registerAndNumber {r v : UInt8} (h : (ofRegisterAndNumber r v).lookup m = some i) :
    ofWords? m.toList [registerWord r, numberWord v] = some i := by
  simp only [ofWords?, readRegister?_registerWord, readRegister?_numberWord, readNumber?_numberWord,
    String.ofList_toList]
  exact h

theorem ofWords?_operandWords (hi : ∀ b ∈ i.unread?, b = 0) :
    ofWords? i.mnemonic.toList i.operandWords = some i := by
  cases i with
  | nop | halt | ret | interruptReturn => rfl
  | loadImmediate r v | addImmediate r v => exact ofWords?_registerAndNumber rfl
  | load a b | store a b | printText a b => exact ofWords?_twoRegisters rfl
  | push r | pop r | call r | interrupt r | printNumber r | printChar r => exact ofWords?_register rfl
  | jump c r => cases c <;> exact ofWords?_register rfl
  | alu op a b =>
    cases op with
    | inc | dec | not =>
      obtain rfl : b = 0 := hi b rfl
      exact ofWords?_register rfl
    | _ => exact ofWords?_twoRegisters rfl

theorem splitOn_assembly (i : Instruction UInt8) : i.assembly.toList.splitOn ' ' = i.words := by
  have hblank : ∀ word ∈ i.words, ' ' ∉ word := fun word h hmem => (ne_of_mem_words h ' ' hmem).1 rfl
  have hne : i.words ≠ [] := by
    rcases i.words_cases with ⟨-, hwords⟩ | ⟨-, hwords⟩ <;> exact hwords ▸ List.cons_ne_nil _ _
  rw [toList_assembly, List.splitOn_intercalate ' ' hblank hne]

theorem splitOn_operands (h : i.operandWords ≠ []) :
    ([','].intercalate i.operandWords).splitOn ',' = i.operandWords := by
  have hcomma : ∀ word ∈ i.operandWords, ',' ∉ word :=
    fun word hword hmem => (ne_of_isOperand (isOperand_of_mem hword) hmem).2.1 rfl
  exact List.splitOn_intercalate ',' hcomma h

/-- An instruction is read back from its text, but for an operand that its bytes do not show either. -/
theorem ofAssembly?_assembly (hi : ∀ b ∈ i.unread?, b = 0) : ofAssembly? i.assembly = some i := by
  have hread := ofWords?_operandWords hi
  rw [ofAssembly?, splitOn_assembly]
  rcases i.words_cases with ⟨hnone, hwords⟩ | ⟨hsome, hwords⟩
  · rw [hnone] at hread
    rw [hwords]
    exact hread
  · rw [hwords]
    show ofWords? _ (([','].intercalate i.operandWords).splitOn ',') = _
    rw [splitOn_operands hsome, hread]

end

end Instruction

end Microcomputer
