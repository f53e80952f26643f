import Microcomputer.Text.Byte

/-!
Columns of a line, read back.

* `hexWord?_hex`: two hexadecimal digits are read as the byte that they were written for.
* `readColumn?_intercalate`: bytes that stand in words, a blank between each two of them, are read back in order
  where the words are.
* `cut_append`: a line is cut into columns of given widths, one after the other; what is left is the last.
* `FitsColumn` says of a text that it can stand in a column: without the blanks that fill it up, the column is
  the text (`FitsColumn.trimEnd_padRight`).
-/

namespace Microcomputer.Text

/-! ## Hexadecimal digits -/

/-- What a hexadecimal digit stands for, with capital letters. -/
def hexDigit? (c : Char) : Option Nat :=
  if '0' ≤ c ∧ c ≤ '9' then some (c.toNat - 48)
  else if 'A' ≤ c ∧ c ≤ 'F' then some (c.toNat - 55)
  else none

/-- The byte that two digits stand for. -/
def readHex? (high low : Char) : Option UInt8 := do
  let h ← hexDigit? high
  let l ← hexDigit? low
  return UInt8.ofNat (16 * h + l)

/-- The byte of a word of two digits. -/
def hexWord? : List Char → Option UInt8
  | [high, low] => readHex? high low
  | _ => none

theorem hexDigit?_upperDigit : ∀ n < 16, hexDigit? (upperDigit n) = some n := by decide

theorem toList_hex (b : UInt8) :
    (hex b).toList = [upperDigit (b.toNat / 16), upperDigit (b.toNat % 16)] := String.toList_ofList

theorem toList_hex_append (b : UInt8) (s : String) :
    (hex b ++ s).toList =
      upperDigit (b.toNat / 16) :: upperDigit (b.toNat % 16) :: s.toList := by
  rw [String.toList_append, toList_hex]
  rfl

theorem readHex?_upperDigit (b : UInt8) :
    readHex? (upperDigit (b.toNat / 16)) (upperDigit (b.toNat % 16)) = some b := by
  have hb := b.toNat_lt
  rw [readHex?, hexDigit?_upperDigit _ (by omega), hexDigit?_upperDigit _ (by omega)]
  show some (UInt8.ofNat (16 * (b.toNat / 16) + b.toNat % 16)) = some b
  rw [Nat.div_add_mod, UInt8.ofNat_toNat]

theorem hexWord?_hex (b : UInt8) : hexWord? (hex b).toList = some b := by
  rw [toList_hex]
  exact readHex?_upperDigit b

theorem length_hex (b : UInt8) : (hex b).toList.length = 2 := congrArg List.length (toList_hex b)

theorem blank_notMem_hex (b : UInt8) : ' ' ∉ (hex b).toList := by
  have hdigit : ∀ n < 16, upperDigit n ≠ ' ' := by decide
  have hb := b.toNat_lt
  rw [toList_hex, List.mem_cons, List.mem_singleton]
  rintro (hhigh | hlow)
  · exact hdigit _ (by omega) hhigh.symm
  · exact hdigit _ (by omega) hlow.symm

/-! ## Bytes in words -/

/-- What is read piece by piece is the list whose pieces were written. -/
theorem mapM_map_of_read {α β : Type} {read : β → Option α} {write : α → β} {values : List α}
    (hread : ∀ v ∈ values, read (write v) = some v) : (values.map write).mapM read = some values := by
  induction values with
  | nil => rfl
  | cons v rest ih =>
    obtain ⟨hv, hrest⟩ := List.forall_mem_cons.mp hread
    rw [List.map_cons, List.mapM_cons, hv, ih hrest]
    rfl

/-- The bytes of words with a blank between each two of them. -/
def readColumn? (read : List Char → Option UInt8) (column : List Char) : Option (List UInt8) :=
  (column.splitOn ' ').mapM read

section

variable {read : List Char → Option UInt8} {write : UInt8 → String} {bytes : List UInt8}

theorem toList_intercalate_blank (write : UInt8 → String) (bytes : List UInt8) :
    (" ".intercalate (bytes.map write)).toList =
      [' '].intercalate (bytes.map fun b => (write b).toList) := by
  rw [String.toList_intercalate, List.map_map]
  rfl

theorem forall_mem_intercalate {P : Char → Prop} {separator : List Char} {pieces : List (List Char)}
    (hseparator : ∀ c ∈ separator, P c) (hpieces : ∀ piece ∈ pieces, ∀ c ∈ piece, P c) :
    ∀ c ∈ separator.intercalate pieces, P c := by
  induction pieces with
  | nil => exact List.forall_mem_nil _
  | cons piece rest ih =>
    obtain ⟨hpiece, hrest⟩ := List.forall_mem_cons.mp hpieces
    cases rest with
    | nil => rwa [List.intercalate_singleton]
    | cons next more =>
      rw [List.intercalate_cons_cons]
      exact List.forall_mem_append.mpr ⟨List.forall_mem_append.mpr ⟨hpiece, hseparator⟩, ih hrest⟩

theorem readColumn?_intercalate (hread : ∀ b, read (write b).toList = some b)
    (hword : ∀ b, ' ' ∉ (write b).toList) (hne : bytes ≠ []) :
    readColumn? read (" ".intercalate (bytes.map write)).toList = some bytes := by
  have hwords : ∀ word ∈ bytes.map fun b => (write b).toList, ' ' ∉ word := by
    intro word h
    obtain ⟨b, -, rfl⟩ := List.mem_map.mp h
    exact hword b
  rw [readColumn?, toList_intercalate_blank, List.splitOn_intercalate ' ' hwords (by simpa using hne)]
  exact mapM_map_of_read fun b _ => hread b

/-- Each word takes its width and the blank behind it, which the last one lacks. -/
theorem length_intercalate_blank {width : Nat} (hwidth : ∀ b, (write b).toList.length = width)
    (hne : bytes ≠ []) :
    (" ".intercalate (bytes.map write)).toList.length + 1 = bytes.length * (width + 1) := by
  rw [toList_intercalate_blank]
  induction bytes with
  | nil => exact absurd rfl hne
  | cons b rest ih =>
    cases rest with
    | nil => simp [hwidth]
    | cons c more =>
      have hrest := ih (List.cons_ne_nil c more)
      rw [List.map_cons, List.map_cons, List.intercalate_cons_cons, List.length_append,
        List.length_append, hwidth, List.length_singleton, Nat.add_assoc]
      rw [List.map_cons] at hrest
      rw [hrest, List.length_cons (a := b), Nat.succ_mul, Nat.add_comm]

end

/-! ## Columns of fixed widths -/

/-- Columns of these widths, and what is left of the line after them. -/
def cut : List Nat → List Char → List (List Char)
  | [], line => [line]
  | width :: more, line => line.take width :: cut more (line.drop width)

theorem cut_append {width : Nat} {column : List Char} (hwidth : column.length = width) (more : List Nat)
    (rest : List Char) : cut (width :: more) (column ++ rest) = column :: cut more rest := by
  rw [cut, List.take_left' hwidth, List.drop_left' hwidth]

/-- The column without the blanks at its end. -/
def trimEnd (column : List Char) : List Char := (column.reverse.dropWhile (· = ' ')).reverse

/-- No character ends a line. -/
def Unbroken (text : List Char) : Prop := ∀ c ∈ text, c ≠ '\n' ∧ c ≠ '\r'

instance (text : List Char) : Decidable (Unbroken text) := List.decidableBAll _ text

/-- The text is no longer than the column, stands on one line and does not end with a blank. -/
structure FitsColumn (width : Nat) (text : List Char) : Prop where
  short : text.length ≤ width
  unbroken : Unbroken text
  ended : text.getLast? ≠ some ' '

section

variable {width : Nat} {s : String}

theorem toList_padRight (width : Nat) (s : String) :
    (padRight width s).toList = s.toList ++ List.replicate (width - s.length) ' ' := by
  rw [padRight, String.toList_append, String.toList_ofList]

theorem FitsColumn.length_padRight (h : FitsColumn width s.toList) :
    (padRight width s).toList.length = width := by
  have hshort := h.short
  rw [String.length_toList] at hshort
  rw [toList_padRight, List.length_append, List.length_replicate, String.length_toList]
  omega

theorem trimEnd_append_blanks {text : List Char} (h : text.getLast? ≠ some ' ') (n : Nat) :
    trimEnd (text ++ List.replicate n ' ') = text := by
  have hblanks : ∀ c ∈ List.replicate n ' ', decide (c = ' ') = true :=
    fun c hc => decide_eq_true (List.eq_of_mem_replicate hc)
  rw [trimEnd, List.reverse_append, List.reverse_replicate, List.dropWhile_append_of_pos hblanks]
  cases hlast : text.reverse with
  | nil => rw [List.dropWhile_nil, List.reverse_nil, List.reverse_eq_nil_iff.mp hlast]
  | cons c rest =>
    have hc : c ≠ ' ' := by
      rintro rfl
      exact h (by rw [← List.head?_reverse, hlast]; rfl)
    rw [List.dropWhile_cons_of_neg (by simpa using hc), ← hlast, List.reverse_reverse]

theorem FitsColumn.trimEnd_padRight (h : FitsColumn width s.toList) :
    trimEnd (padRight width s).toList = s.toList := by
  rw [toList_padRight]
  exact trimEnd_append_blanks h.ended _

end

end Microcomputer.Text
