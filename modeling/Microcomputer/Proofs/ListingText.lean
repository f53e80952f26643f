import Microcomputer.Listing
import Microcomputer.Proofs.AssemblyText
import Microcomputer.Proofs.ProgramText

/-!
The text of a listing, read back.

A line of a listing has four columns: an address in hexadecimal, the text of what stands there, and its bytes in
binary, the last two set off by a semicolon. `Entry.ofLine?` cuts them apart again, and `ofText?` reads a whole
listing below its heading.

* `ofLine?_line`: a line is read back as its entry, if the entry's text fits its column.
* `ofText?_text`: a listing is read back as its entries, whatever the image is.
-/

namespace Microcomputer

namespace Text

/-- The byte of a word of eight binary digits. -/
def binaryWord? (word : List Char) : Option UInt8 :=
  if word.length = 8 then (readBinary word).toOption else none

theorem binaryWord?_binary (b : UInt8) : binaryWord? (binary b).toList = some b := by
  have hbits : ∀ c ∈ bits b, Image.isBit c := fun c hc => Image.isBit_iff.mpr (eq_of_mem_bits hc)
  obtain ⟨read, hread, hsame⟩ := readBinary_of_eight (bits_length b) hbits
  rw [binary, String.toList_ofList, binaryWord?, if_pos (bits_length b), hread, bits_injective hsame]
  rfl

theorem ne_of_mem_binary {b : UInt8} {c : Char} (h : c ∈ (binary b).toList) :
    c ≠ ' ' ∧ c ≠ '\n' ∧ c ≠ '\r' := by
  rw [binary, String.toList_ofList] at h
  rcases eq_of_mem_bits h with rfl | rfl <;> decide

theorem unbroken_hex (b : UInt8) : Unbroken (hex b).toList := by
  have hdigit : ∀ n < 16, upperDigit n ≠ '\n' ∧ upperDigit n ≠ '\r' := by decide
  have hb := b.toNat_lt
  rw [toList_hex]
  exact List.forall_mem_cons.mpr
    ⟨hdigit _ (by omega), List.forall_mem_singleton.mpr (hdigit _ (by omega))⟩

/-- A line that no character breaks is the first of a text that begins with it. -/
theorem lines_of_unbroken {line : List Char} (h : Unbroken line) (rest : List Char) :
    lines (line ++ '\n' :: rest) = line :: lines rest := by
  obtain ⟨shown, hlines, hshown⟩ := lines_append_feed (fun hmem => (h '\n' hmem).1 rfl) rest
  rw [hlines]
  rcases hshown with rfl | rfl
  · rfl
  · have hreturn := (h '\r' (List.mem_append_right _ List.mem_cons_self)).2
    exact absurd rfl hreturn

end Text

namespace Listing

/-! ## A line -/

/-- The entry that a line shows. -/
def Entry.ofLine? (line : List Char) : Option Entry :=
  match Text.cut [2, 2, 14, 3] line with
  | [address, [':', ' '], text, [' ', ';', ' '], bytes] => do
    let address ← Text.hexWord? address
    let bytes ← Text.readColumn? Text.binaryWord? bytes
    return ⟨address, String.ofList (Text.trimEnd text), bytes⟩
  | _ => none

/-- What a line can show: a text that fits its column, and some bytes. -/
structure Entry.Legible (e : Entry) : Prop where
  text : Text.FitsColumn 14 e.text.toList
  bytes : e.bytes ≠ []

/-- The line without the line feed at its end. -/
def Entry.columns (e : Entry) : List Char :=
  (Text.hex e.address).toList ++ ([':', ' '] ++ ((Text.padRight 14 e.text).toList ++
    ([' ', ';', ' '] ++ (" ".intercalate (e.bytes.map Text.binary)).toList)))

theorem Entry.toList_line (e : Entry) : e.line.toList = e.columns ++ ['\n'] := by
  simp [Entry.line, Entry.columns, Instruction.assemblyWidth]

variable {e : Entry}

theorem Entry.Legible.ofLine?_columns (h : e.Legible) : Entry.ofLine? e.columns = some e := by
  have hblank (b : UInt8) : ' ' ∉ (Text.binary b).toList := fun hmem => (Text.ne_of_mem_binary hmem).1 rfl
  have hbytes := Text.readColumn?_intercalate Text.binaryWord?_binary hblank h.bytes
  have hcut : Text.cut [2, 2, 14, 3] e.columns = [(Text.hex e.address).toList, [':', ' '],
      (Text.padRight 14 e.text).toList, [' ', ';', ' '],
      (" ".intercalate (e.bytes.map Text.binary)).toList] := by
    have hcolon : [':', ' '].length = 2 := rfl
    have hsemicolon : [' ', ';', ' '].length = 3 := rfl
    rw [Entry.columns, Text.cut_append (Text.length_hex _), Text.cut_append hcolon,
      Text.cut_append h.text.length_padRight, Text.cut_append hsemicolon, Text.cut]
  rw [Entry.ofLine?, hcut]
  simp only [Text.hexWord?_hex, hbytes, h.text.trimEnd_padRight, String.ofList_toList]
  rfl

theorem Entry.Legible.unbroken_columns (h : e.Legible) : Text.Unbroken e.columns := by
  have hpadding : Text.Unbroken (List.replicate (14 - e.text.length) ' ') := fun c hc => by
    obtain rfl := List.eq_of_mem_replicate hc
    decide
  have hbytes : Text.Unbroken (" ".intercalate (e.bytes.map Text.binary)).toList := by
    rw [Text.toList_intercalate_blank]
    have hblank : Text.Unbroken [' '] := by decide
    refine Text.forall_mem_intercalate hblank fun word hword c hc => ?_
    obtain ⟨b, -, rfl⟩ := List.mem_map.mp hword
    exact (Text.ne_of_mem_binary hc).2
  have htext : Text.Unbroken (Text.padRight 14 e.text).toList := by
    rw [Text.toList_padRight]
    exact List.forall_mem_append.mpr ⟨h.text.unbroken, hpadding⟩
  have hcolon : Text.Unbroken [':', ' '] := by decide
  have hsemicolon : Text.Unbroken [' ', ';', ' '] := by decide
  exact List.forall_mem_append.mpr ⟨Text.unbroken_hex _, List.forall_mem_append.mpr ⟨hcolon,
    List.forall_mem_append.mpr ⟨htext, List.forall_mem_append.mpr ⟨hsemicolon, hbytes⟩⟩⟩⟩

/-! ## Whole listings -/

/-- The entries that a listing shows, below its heading. -/
def ofText? (text : String) : Option (List Entry) :=
  match Text.lines text.toList with
  | title :: rule :: [] :: lines =>
    if title = "; LS-8 Disassembly".toList ∧ rule = "; -----------------".toList then
      lines.mapM Entry.ofLine?
    else none
  | _ => none

theorem lines_join {es : List Entry} (h : ∀ e ∈ es, e.Legible) :
    Text.lines (String.join (es.map Entry.line)).toList = es.map Entry.columns := by
  induction es with
  | nil => rfl
  | cons e rest ih =>
    obtain ⟨he, hrest⟩ := List.forall_mem_cons.mp h
    have hjoin : (String.join ((e :: rest).map Entry.line)).toList =
        e.columns ++ '\n' :: (String.join (rest.map Entry.line)).toList := by
      rw [List.map_cons, String.join_cons, String.toList_append, Entry.toList_line, List.append_assoc]
      rfl
    rw [hjoin, Text.lines_of_unbroken he.unbroken_columns, ih hrest, List.map_cons]

/-- Data show as such. -/
theorem fits_data (b : UInt8) : Text.FitsColumn 14 ("DB " ++ Text.address b).toList := by
  have hdigit : ∀ n < 16, Text.lowerDigit n ≠ '\n' ∧ Text.lowerDigit n ≠ '\r' ∧ Text.lowerDigit n ≠ ' ' := by
    decide
  have hb := b.toNat_lt
  have hchars : ("DB " ++ Text.address b).toList =
      ['D', 'B', ' ', '0', 'x', Text.lowerDigit (b.toNat / 16), Text.lowerDigit (b.toNat % 16)] := by
    rw [String.toList_append, show (Text.address b).toList = _ from String.toList_ofList]
    rfl
  obtain ⟨hfeed, hreturn, -⟩ := hdigit (b.toNat / 16) (by omega)
  obtain ⟨hfeed', hreturn', hblank⟩ := hdigit (b.toNat % 16) (by omega)
  rw [hchars]
  refine ⟨by simp, ?_, by simpa using hblank⟩
  simp [Text.Unbroken, hfeed, hreturn, hfeed', hreturn']

theorem fits_disassembleAt (m : Memory) (a : UInt8) : Text.FitsColumn 14 (m.disassembleAt a).1.toList := by
  unfold Memory.disassembleAt
  split
  · exact Instruction.fits_assembly _
  · exact fits_data _

theorem legible_of_mem_entriesFrom {m : Memory} {a : UInt8} {left : List UInt8}
    (h : e ∈ entriesFrom m a left) : e.Legible := by
  fun_induction entriesFrom m a left with
  | case1 a => cases h
  | case2 a byte rest text size hhere ih =>
    rcases List.mem_cons.mp h with rfl | hrest
    · have hfits := fits_disassembleAt m a
      rw [hhere] at hfits
      exact ⟨hfits, List.cons_ne_nil _ _⟩
    · exact ih hrest

/-- A listing is read back as its entries. -/
theorem ofText?_text (image : List UInt8) : ofText? (text image) = some (entries image) := by
  have hlegible : ∀ e ∈ entries image, e.Legible := fun e he => legible_of_mem_entriesFrom he
  have hlines : Text.lines (text image).toList =
      "; LS-8 Disassembly".toList :: "; -----------------".toList :: [] ::
        (entries image).map Entry.columns := by
    rw [text, String.toList_append, ← lines_join hlegible]
    rfl
  rw [ofText?, hlines]
  exact (if_pos ⟨rfl, rfl⟩).trans
    (Text.mapM_map_of_read fun e he => (hlegible e he).ofLine?_columns)

end Listing

end Microcomputer
