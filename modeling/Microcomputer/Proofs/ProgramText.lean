import Mathlib.Algebra.Order.Ring.Nat
import Mathlib.Data.List.Forall2
import Microcomputer.Image
import Microcomputer.Text.Byte

/-!
The grammar of program texts.

* `readBinary_of_eight`: eight binary digits are a numeral for the byte that they write; the number never
  outgrows a byte on the way.
* `byteOf_of_starts`, `byteOf_of_not_starts`: a code is a byte exactly if it starts with eight binary digits.
* `ofLines_of_accepted`, `ofLines_of_first_refused`: what a sequence of lines is read as, and which line
  is reported if one is refused.
* `lines_append_feed`, `codeOf_shown`: one line more in front of a text, and its code, which a carriage return
  at its end leaves as it is.
* `ofText_grammar` puts these together, and adds that a document is read as the bytes it was written from.
-/

namespace Microcomputer

/-! ## Eight digits -/

theorem Image.isBit_iff {c : Char} : isBit c ↔ c = '0' ∨ c = '1' := by
  simp only [isBit, Bool.or_eq_true, decide_eq_true_eq]

namespace Text

/-- What a binary digit adds to a number. -/
def bitValue (c : Char) : Nat := if c = '1' then 1 else 0

theorem bitValue_le_one (c : Char) : bitValue c ≤ 1 := by
  unfold bitValue
  split <;> decide

theorem bit?_of_isBit {c : Char} (h : Image.isBit c) : bit? c = some (bitValue c) := by
  rcases Image.isBit_iff.mp h with rfl | rfl <;> rfl

/-- Digits are added up as long as the numbers that they can lead to fit into a byte. -/
theorem foldlM_addBit {digits : List Char} (hbits : ∀ c ∈ digits, Image.isBit c) {n : Nat}
    (hroom : (n + 1) * 2 ^ digits.length ≤ UInt8.size) :
    digits.foldlM addBit n = .ok (digits.foldl (fun n c => 2 * n + bitValue c) n) := by
  induction digits generalizing n with
  | nil => rfl
  | cons c rest ih =>
    obtain ⟨hc, hrest⟩ := List.forall_mem_cons.mp hbits
    have hle := bitValue_le_one c
    have hnext : (2 * n + bitValue c + 1) * 2 ^ rest.length ≤ UInt8.size := by
      refine Nat.le_trans (Nat.mul_le_mul_right _ (show _ ≤ (n + 1) * 2 by omega)) ?_
      rwa [Nat.mul_assoc, ← Nat.pow_succ']
    have hfits : 2 * n + bitValue c < UInt8.size :=
      Nat.lt_of_lt_of_le (Nat.le_mul_of_pos_right _ (Nat.two_pow_pos _)) hnext
    have hadd : addBit n c = .ok (2 * n + bitValue c) := by
      rw [addBit, bit?_of_isBit hc]
      exact if_pos hfits
    rw [List.foldlM_cons, hadd]
    exact ih hrest hnext

theorem readBinary_of_isBit {c : Char} {rest : List Char} (h : Image.isBit c) :
    readBinary (c :: rest) = readBits (c :: rest) := by
  rcases Image.isBit_iff.mp h with rfl | rfl <;> rfl

theorem ite_bitValue_eq {c : Char} (h : Image.isBit c) {n : Nat} (hn : n = bitValue c) :
    (if n = 1 then '1' else '0') = c := by
  subst hn
  rcases Image.isBit_iff.mp h with rfl | rfl <;> rfl

theorem readBinary_of_eight {digits : List Char} (hlength : digits.length = 8)
    (hbits : ∀ c ∈ digits, Image.isBit c) : ∃ b, readBinary digits = .ok b ∧ bits b = digits := by
  have hread := foldlM_addBit hbits (n := 0) (by rw [hlength]; decide)
  match digits, hlength, hbits, hread with
  | [c₇, c₆, c₅, c₄, c₃, c₂, c₁, c₀], _, hbits, hread =>
    rw [readBinary_of_isBit (hbits _ List.mem_cons_self), readBits, hread]
    refine ⟨_, rfl, ?_⟩
    simp only [List.forall_mem_cons] at hbits
    obtain ⟨h₇, h₆, h₅, h₄, h₃, h₂, h₁, h₀, -⟩ := hbits
    have hle := bitValue_le_one
    have hle₇ := hle c₇; have hle₆ := hle c₆; have hle₅ := hle c₅; have hle₄ := hle c₄
    have hle₃ := hle c₃; have hle₂ := hle c₂; have hle₁ := hle c₁; have hle₀ := hle c₀
    simp only [List.foldl_cons, List.foldl_nil, bits, UInt8.toNat_ofNat', List.map_cons, List.map_nil,
      List.cons.injEq, and_true]
    exact ⟨ite_bitValue_eq h₇ (by omega), ite_bitValue_eq h₆ (by omega), ite_bitValue_eq h₅ (by omega),
      ite_bitValue_eq h₄ (by omega), ite_bitValue_eq h₃ (by omega), ite_bitValue_eq h₂ (by omega),
      ite_bitValue_eq h₁ (by omega), ite_bitValue_eq h₀ (by omega)⟩

theorem bitValue_digit (n : Nat) : bitValue (if n % 2 = 1 then '1' else '0') = n % 2 := by
  rcases Nat.mod_two_eq_zero_or_one n with h | h <;> rw [h] <;> rfl

/-- The digits of a byte add up to it: the digits read so far are the byte, halved for each one to come. -/
theorem foldl_bits (b : UInt8) : (bits b).foldl (fun n c => 2 * n + bitValue c) 0 = b.toNat := by
  have hfirst : 2 * 0 + b.toNat / 128 % 2 = b.toNat / 128 := by
    have := b.toNat_lt
    omega
  have hnext (weight : Nat) :
      2 * (b.toNat / (2 * weight)) + b.toNat / weight % 2 = b.toNat / weight := by
    rw [Nat.mul_comm 2 weight, ← Nat.div_div_eq_div_mul, Nat.div_add_mod]
  simp only [bits, List.map_cons, List.map_nil, List.foldl_cons, List.foldl_nil, bitValue_digit, hfirst,
    hnext 64, hnext 32, hnext 16, hnext 8, hnext 4, hnext 2, Nat.div_one]
  exact Nat.div_add_mod b.toNat 2

theorem eq_of_mem_bits {b : UInt8} {c : Char} (h : c ∈ bits b) : c = '0' ∨ c = '1' := by
  obtain ⟨weight, -, rfl⟩ := List.mem_map.mp h
  split
  · exact .inr rfl
  · exact .inl rfl

theorem bits_injective {a b : UInt8} (h : bits a = bits b) : a = b :=
  UInt8.toNat_inj.mp (by rw [← foldl_bits a, h, foldl_bits])

end Text

namespace Image

/-! ## Codes -/

/-- The code starts with eight binary digits. -/
def StartsBinary (code : List Char) : Prop :=
  ∃ digits, digits <+: code ∧ digits.length = 8 ∧ ∀ c ∈ digits, c = '0' ∨ c = '1'

variable {code : List Char}

theorem startsBinary_iff : StartsBinary code ↔ (code.take 8).length = 8 ∧ (code.take 8).all isBit := by
  simp only [List.all_eq_true, isBit_iff]
  constructor
  · rintro ⟨digits, hprefix, hlength, hbits⟩
    rw [← hlength, ← List.prefix_iff_eq_take.mp hprefix]
    exact ⟨rfl, hbits⟩
  · rintro ⟨hlength, hbits⟩
    exact ⟨code.take 8, List.take_prefix 8 code, hlength, hbits⟩

instance (code : List Char) : Decidable (StartsBinary code) := decidable_of_iff _ startsBinary_iff.symm

/-- A binary digit is one byte of text. -/
theorem byteCount_of_bits {digits : List Char} (h : ∀ c ∈ digits, isBit c) :
    byteCount digits = digits.length := by
  induction digits with
  | nil => rfl
  | cons c rest ih =>
    obtain ⟨hc, hrest⟩ := List.forall_mem_cons.mp h
    have hone : c.utf8Size = 1 := by
      rcases isBit_iff.mp hc with rfl | rfl <;> rfl
    rw [byteCount, String.ofList_cons, String.utf8ByteSize_append, String.utf8ByteSize_singleton, hone,
      List.length_cons, Nat.add_comm]
    exact congrArg (· + 1) (ih hrest)

theorem byteOf_of_starts (h : StartsBinary code) : ∃ b, byteOf code = .ok b ∧ Text.bits b <+: code := by
  obtain ⟨hlength, hbits⟩ := startsBinary_iff.mp h
  have hbits' := List.all_eq_true.mp hbits
  obtain ⟨b, hread, hb⟩ := Text.readBinary_of_eight hlength hbits'
  refine ⟨b, ?_, hb ▸ List.take_prefix 8 code⟩
  have hcount : byteCount (code.take 8) = 8 := (byteCount_of_bits hbits').trans hlength
  rw [byteOf, if_neg (by simp [hcount, hbits]), hread]
  rfl

theorem byteOf_of_not_starts (h : ¬ StartsBinary code) : byteOf code = .error (.noDigits code) := by
  refine if_pos (Classical.byContradiction fun hneg => h (startsBinary_iff.mpr ?_))
  obtain ⟨hcount, hbits⟩ := not_or.mp hneg
  rw [Classical.not_not] at hcount hbits
  exact ⟨(byteCount_of_bits (List.all_eq_true.mp hbits)).symm.trans hcount, hbits⟩

theorem byteOf_readable (code : List Char) (cause : Text.NumeralError) :
    byteOf code ≠ .error (.unreadable cause) := by
  by_cases h : StartsBinary code
  · obtain ⟨b, hb, -⟩ := byteOf_of_starts h
    exact fun hcause => nomatch hb.symm.trans hcause
  · exact fun hcause => nomatch (byteOf_of_not_starts h).symm.trans hcause

theorem startsBinary_of_bits {b : UInt8} (h : Text.bits b <+: code) : StartsBinary code :=
  ⟨Text.bits b, h, Text.bits_length b, fun _ hc => Text.eq_of_mem_bits hc⟩

theorem byteOf_of_bits {b : UInt8} (h : Text.bits b <+: code) : byteOf code = .ok b := by
  obtain ⟨a, ha, hprefix⟩ := byteOf_of_starts (startsBinary_of_bits h)
  have hsame : Text.bits a = Text.bits b :=
    (List.prefix_of_prefix_length_le hprefix h (Nat.le_refl 8)).eq_of_length rfl
  rw [ha, Text.bits_injective hsame]

/-! ## Lines -/

section

variable {number : Nat} {line : List Char} {rest : List (List Char)}

theorem ofLines_of_skipped (h : codeOf line = []) :
    ofLines number (line :: rest) = ofLines (number + 1) rest := by
  rw [ofLines, h]

theorem ofLines_of_code (h : codeOf line ≠ []) :
    ofLines number (line :: rest) =
      match byteOf (codeOf line) with
      | .error cause => .error (.badLine number cause)
      | .ok b => (ofLines (number + 1) rest).map (b :: ·) := by
  rw [ofLines]
  cases hcode : codeOf line with
  | nil => exact absurd hcode h
  | cons c more => rfl

theorem ofLines_of_byte {b : UInt8} (h : Text.bits b <+: codeOf line) :
    ofLines number (line :: rest) = (ofLines (number + 1) rest).map (b :: ·) := by
  have hne : codeOf line ≠ [] := fun hnil => absurd (List.prefix_nil.mp (hnil ▸ h)) (List.cons_ne_nil _ _)
  rw [ofLines_of_code hne, byteOf_of_bits h]

theorem ofLines_of_refused (hne : codeOf line ≠ []) (h : ¬ StartsBinary (codeOf line)) :
    ofLines number (line :: rest) = .error (.badLine number (.noDigits (codeOf line))) := by
  rw [ofLines_of_code hne, byteOf_of_not_starts h]

end

/-- A code that a line of a program text may have. -/
def Accepted (code : List Char) : Prop := code = [] ∨ StartsBinary code

instance (code : List Char) : Decidable (Accepted code) := inferInstanceAs (Decidable (_ ∨ _))

/-- The bytes are those of the codes that are not empty, in order. -/
def Spell (codes : List (List Char)) (bytes : List UInt8) : Prop :=
  List.Forall₂ (fun code b => Text.bits b <+: code) (codes.filter (· ≠ [])) bytes

theorem Spell.append {codes more : List (List Char)} {bytes others : List UInt8} (h : Spell codes bytes)
    (hmore : Spell more others) : Spell (codes ++ more) (bytes ++ others) := by
  rw [Spell, List.filter_append]
  exact List.rel_append h hmore

/-- An accepted line puts its byte, if it has one, in front of those that follow. -/
theorem ofLines_cons_of_accepted {line : List Char} (h : Accepted (codeOf line)) :
    ∃ bytes, Spell [codeOf line] bytes ∧
      ∀ number rest, ofLines number (line :: rest) = (ofLines (number + 1) rest).map (bytes ++ ·) := by
  by_cases hcode : codeOf line = []
  · refine ⟨[], by rw [hcode]; exact .nil, fun number rest => ?_⟩
    rw [ofLines_of_skipped hcode]
    exact (id_map _).symm
  · obtain ⟨b, -, hb⟩ := byteOf_of_starts (h.resolve_left hcode)
    refine ⟨[b], ?_, fun number rest => ofLines_of_byte hb⟩
    rw [Spell, List.filter_cons_of_pos (by simpa using hcode)]
    exact .cons hb .nil

theorem ofLines_of_accepted {lines : List (List Char)} (number : Nat)
    (h : ∀ code ∈ lines.map codeOf, Accepted code) :
    ∃ bytes, ofLines number lines = .ok bytes ∧ Spell (lines.map codeOf) bytes := by
  induction lines generalizing number with
  | nil => exact ⟨[], rfl, .nil⟩
  | cons line rest ih =>
    obtain ⟨hline, hrest⟩ := List.forall_mem_cons.mp h
    obtain ⟨first, hfirst, hcons⟩ := ofLines_cons_of_accepted hline
    obtain ⟨bytes, hread, hspell⟩ := ih (number + 1) hrest
    exact ⟨first ++ bytes, by rw [hcons, hread]; rfl, hfirst.append hspell⟩

theorem exists_first_refused {lines : List (List Char)} (h : ¬ ∀ code ∈ lines.map codeOf, Accepted code) :
    ∃ before line after, lines = before ++ line :: after ∧
      (∀ code ∈ before.map codeOf, Accepted code) ∧ ¬ Accepted (codeOf line) := by
  simp only [List.forall_mem_map, not_forall] at h
  obtain ⟨found, hfound, hrefused⟩ := h
  obtain ⟨line, hline⟩ := Option.isSome_iff_exists.mp
    (List.find?_isSome.mpr ⟨found, hfound, decide_eq_true hrefused⟩ :
      (lines.find? fun line => ¬ Accepted (codeOf line)).isSome)
  obtain ⟨hnot, before, after, hsplit, hbefore⟩ := List.find?_eq_some_iff_append.mp hline
  refine ⟨before, line, after, hsplit, List.forall_mem_map.mpr fun earlier hearlier => ?_,
    of_decide_eq_true hnot⟩
  simpa using hbefore earlier hearlier

/-- The first line that is not accepted is reported, whatever follows it. -/
theorem ofLines_of_first_refused {before after : List (List Char)} {line : List Char} (number : Nat)
    (hbefore : ∀ code ∈ before.map codeOf, Accepted code) (hline : ¬ Accepted (codeOf line)) :
    ofLines number (before ++ line :: after) =
      .error (.badLine (number + before.length) (.noDigits (codeOf line))) := by
  induction before generalizing number with
  | nil => exact ofLines_of_refused (not_or.mp hline).1 (not_or.mp hline).2
  | cons earlier rest ih =>
    obtain ⟨hearlier, hrest⟩ := List.forall_mem_cons.mp hbefore
    obtain ⟨first, -, hcons⟩ := ofLines_cons_of_accepted hearlier
    rw [List.cons_append, hcons, ih (number + 1) hrest, List.length_cons, Nat.add_right_comm, Nat.add_assoc]
    rfl

end Image

/-! ## Blanks around a code -/

namespace Text

theorem trim_append_of_blank {lead : List Char} (h : ∀ c ∈ lead, isBlank c) (cs : List Char) :
    trim (lead ++ cs) = trim cs := by
  rw [trim, List.dropWhile_append_of_pos h, trim]

theorem trim_of_blank {cs : List Char} (h : ∀ c ∈ cs, isBlank c) : trim cs = [] := by
  rw [← List.append_nil cs, trim_append_of_blank h]
  rfl

theorem trim_concat_of_blank {c : Char} (h : isBlank c) (cs : List Char) :
    trim (cs ++ [c]) = trim cs := by
  rw [trim, trim, List.dropWhile_append]
  split
  · next hempty => rw [List.isEmpty_iff.mp hempty, List.dropWhile_cons_of_pos h, List.dropWhile_nil]
  · rw [List.reverse_concat, List.dropWhile_cons_of_pos h]

/-- A text without blanks stays whole at the front of one that is trimmed. -/
theorem prefix_trim {core : List Char} (h : ∀ c ∈ core, ¬ isBlank c) (tail : List Char) :
    core <+: trim (core ++ tail) := by
  have hkept (cs : List Char) (hcs : ∀ c ∈ cs, ¬ isBlank c) : cs.dropWhile isBlank = cs := by
    cases cs with
    | nil => rfl
    | cons c more => exact List.dropWhile_cons_of_neg (hcs c List.mem_cons_self)
  cases core with
  | nil => exact List.nil_prefix
  | cons c more =>
    have hfront : (c :: more ++ tail).dropWhile isBlank = c :: more ++ tail :=
      List.dropWhile_cons_of_neg (h c List.mem_cons_self)
    rw [trim, hfront, List.reverse_append, List.dropWhile_append,
      hkept (c :: more).reverse (fun x hx => h x (List.mem_reverse.mp hx))]
    split
    · exact ⟨[], by rw [List.reverse_reverse, List.append_nil]⟩
    · exact ⟨_, by rw [List.reverse_append, List.reverse_reverse]⟩

end Text

namespace Image

theorem ne_sign_of_blank {c : Char} (h : Text.isBlank c) : c ≠ '#' := by
  rintro rfl
  exact absurd h (by decide)

theorem takeWhile_of_blank {lead : List Char} (h : ∀ c ∈ lead, Text.isBlank c) (cs : List Char) :
    (lead ++ cs).takeWhile (· ≠ '#') = lead ++ cs.takeWhile (· ≠ '#') :=
  List.takeWhile_append_of_pos fun c hc => decide_eq_true (ne_sign_of_blank (h c hc))

theorem codeOf_of_blank {line : List Char} (h : ∀ c ∈ line, Text.isBlank c) : codeOf line = [] :=
  Text.trim_of_blank fun c hc => h c (List.takeWhile_subset _ hc)

theorem codeOf_comment {lead : List Char} (h : ∀ c ∈ lead, Text.isBlank c) (remark : List Char) :
    codeOf (lead ++ '#' :: remark) = [] := by
  rw [codeOf, takeWhile_of_blank h, Text.trim_append_of_blank h]
  rfl

theorem prefix_codeOf {lead core : List Char} (hlead : ∀ c ∈ lead, Text.isBlank c)
    (hcore : ∀ c ∈ core, ¬ Text.isBlank c ∧ c ≠ '#') (trail : List Char) :
    core <+: codeOf (lead ++ (core ++ trail)) := by
  rw [codeOf, takeWhile_of_blank hlead, Text.trim_append_of_blank hlead,
    List.takeWhile_append_of_pos fun c hc => decide_eq_true (hcore c hc).2]
  exact Text.prefix_trim (fun c hc => (hcore c hc).1) _

theorem codeOf_concat_of_blank {c : Char} (h : Text.isBlank c) (line : List Char) :
    codeOf (line ++ [c]) = codeOf line := by
  have hlast : [c].takeWhile (· ≠ '#') = [c] :=
    List.takeWhile_cons_of_pos (decide_eq_true (ne_sign_of_blank h))
  rw [codeOf, List.takeWhile_append, codeOf]
  split
  · next hwhole => rw [(List.takeWhile_prefix _).eq_of_length hwhole, hlast, Text.trim_concat_of_blank h]
  · rfl

end Image

/-! ## Lines of a text -/

namespace Text

/-- One line more in front: what is shown of it lacks a carriage return that ends it. -/
theorem lines_append_feed {line : List Char} (h : '\n' ∉ line) (rest : List Char) :
    ∃ shown, lines (line ++ '\n' :: rest) = shown :: lines rest ∧
      (line = shown ∨ line = shown ++ ['\r']) := by
  induction line with
  | nil => exact ⟨[], rfl, .inl rfl⟩
  | cons c more ih =>
    obtain ⟨hc, hmore⟩ := not_or.mp fun hor => h (List.mem_cons.mpr hor)
    obtain ⟨shown, hlines, hshown⟩ := ih hmore
    -- Only a return right before the feed goes with it; the others are characters of the line.
    by_cases hreturn : c = '\r' ∧ more = []
    · obtain ⟨rfl, rfl⟩ := hreturn
      exact ⟨[], rfl, .inr rfl⟩
    · refine ⟨c :: shown, ?_, ?_⟩
      · rw [List.cons_append, lines, hlines]
        · exact fun heq => hc heq.symm
        · rintro tail rfl heq
          cases more with
          | nil => exact hreturn ⟨rfl, rfl⟩
          | cons d more => exact hmore ((List.cons.inj heq).1 ▸ List.mem_cons_self)
      · rcases hshown with rfl | rfl
        · exact .inl rfl
        · exact .inr rfl

/-- The last line need not be ended. -/
theorem lines_of_unended {line : List Char} (h : '\n' ∉ line) (hne : line ≠ []) : lines line = [line] := by
  induction line with
  | nil => exact absurd rfl hne
  | cons c more ih =>
    obtain ⟨hc, hmore⟩ := not_or.mp fun hor => h (List.mem_cons.mpr hor)
    rw [lines]
    · cases more with
      | nil => rfl
      | cons d more => rw [ih hmore (List.cons_ne_nil _ _)]
    · exact fun heq => hc heq.symm
    · rintro tail rfl rfl
      exact hmore List.mem_cons_self

end Text

namespace Image

theorem codeOf_shown {line shown : List Char} (h : line = shown ∨ line = shown ++ ['\r']) :
    codeOf shown = codeOf line := by
  rcases h with rfl | rfl
  · rfl
  · exact (codeOf_concat_of_blank (by decide) shown).symm

/-! ## Documents -/

/-- Text within a line. -/
abbrev Inline := { cs : List Char // '\n' ∉ cs }

/-- Blanks within a line. -/
abbrev Blanks := { cs : List Char // '\n' ∉ cs ∧ ∀ c ∈ cs, Text.isBlank c }

/-- A line of a program text as its author means it. -/
inductive SourceLine
  | byte (lead : Blanks) (b : UInt8) (trail : Inline)
  | comment (lead : Blanks) (remark : Inline)
  | blank (blanks : Blanks)

namespace SourceLine

def written : SourceLine → List Char
  | byte lead b trail => lead.1 ++ (Text.bits b ++ trail.1)
  | comment lead remark => lead.1 ++ '#' :: remark.1
  | blank blanks => blanks.1

def value? : SourceLine → Option UInt8
  | byte _ b _ => some b
  | comment .. | blank _ => none

theorem feed_notMem_written (s : SourceLine) : '\n' ∉ s.written := by
  cases s with
  | byte lead b trail =>
    simp only [written, List.mem_append]
    rintro (hlead | hbits | htrail)
    · exact lead.2.1 hlead
    · exact absurd (Text.eq_of_mem_bits hbits) (by decide)
    · exact trail.2 htrail
  | comment lead remark =>
    simp only [written, List.mem_append, List.mem_cons]
    rintro (hlead | hsign | hremark)
    · exact lead.2.1 hlead
    · exact absurd hsign (by decide)
    · exact remark.2 hremark
  | blank blanks => exact blanks.2.1

theorem filterMap_cons (s : SourceLine) (rest : List SourceLine) :
    (s :: rest).filterMap value? = s.value?.toList ++ rest.filterMap value? := by
  cases s <;> rfl

/-- A line is read as it is meant. -/
theorem ofLines_written (s : SourceLine) {line : List Char} (h : codeOf line = codeOf s.written)
    (number : Nat) (rest : List (List Char)) :
    ofLines number (line :: rest) = (ofLines (number + 1) rest).map (s.value?.toList ++ ·) := by
  cases s with
  | byte lead b trail =>
    refine ofLines_of_byte (h ▸ prefix_codeOf lead.2.2 (fun c hc => ?_) trail.1)
    rcases Text.eq_of_mem_bits hc with rfl | rfl <;> decide
  | comment lead remark =>
    rw [ofLines_of_skipped (h.trans (codeOf_comment lead.2.2 remark.1))]
    exact (id_map _).symm
  | blank blanks =>
    rw [ofLines_of_skipped (h.trans (codeOf_of_blank blanks.2.2))]
    exact (id_map _).symm

end SourceLine

/-- The text of a document, with a line feed between every two lines. -/
def documentText (document : List SourceLine) : List Char :=
  ['\n'].intercalate (document.map SourceLine.written)

theorem ofLines_documentText (document : List SourceLine) (number : Nat) :
    ofLines number (Text.lines (documentText document)) = .ok (document.filterMap SourceLine.value?) := by
  induction document generalizing number with
  | nil => rfl
  | cons s rest ih =>
    rw [SourceLine.filterMap_cons]
    cases rest with
    | nil =>
      have hread := s.ofLines_written rfl number []
      rw [documentText, List.map_singleton, List.intercalate_singleton]
      by_cases hempty : s.written = []
      · rw [hempty] at hread ⊢
        exact hread
      · rw [Text.lines_of_unended s.feed_notMem_written hempty]
        exact hread
    | cons t rest =>
      obtain ⟨shown, hlines, hshown⟩ :=
        Text.lines_append_feed s.feed_notMem_written (documentText (t :: rest))
      have htext : documentText (s :: t :: rest) = s.written ++ '\n' :: documentText (t :: rest) := by
        rw [documentText, List.map_cons, List.map_cons, List.intercalate_cons_cons, List.append_assoc]
        rfl
      rw [htext, hlines, s.ofLines_written (codeOf_shown hshown), ih]
      rfl

/-! ## Program texts -/

/-- What a program text is read as. It is accepted exactly if each of its lines has a code that is empty or
starts with eight binary digits, and otherwise the first other line is reported; digits that were found are
never refused as a numeral. A document is read as the bytes that it was written from. -/
theorem ofText_grammar :
    (∀ text : String,
      let codes := (Text.lines text.toList).map codeOf
      ((∀ code ∈ codes, Accepted code) → ∃ bytes, ofText text = .ok bytes ∧ Spell codes bytes) ∧
      (¬ (∀ code ∈ codes, Accepted code) →
        ∃ before code after, codes = before ++ code :: after ∧ (∀ earlier ∈ before, Accepted earlier) ∧
          ¬ Accepted code ∧ ofText text = .error (.badLine (before.length + 1) (.noDigits code)))) ∧
    (∀ code cause, byteOf code ≠ .error (.unreadable cause)) ∧
    ∀ document : List SourceLine,
      ofText (String.ofList (documentText document)) = .ok (document.filterMap SourceLine.value?) := by
  refine ⟨fun text => ⟨fun haccepted => ofLines_of_accepted 1 haccepted, fun hsome => ?_⟩, byteOf_readable,
    fun document => ?_⟩
  · obtain ⟨before, line, after, hlines, hbefore, hline⟩ := exists_first_refused hsome
    refine ⟨before.map codeOf, codeOf line, after.map codeOf, ?_, hbefore, hline, ?_⟩
    · rw [hlines, List.map_append, List.map_cons]
    · rw [ofText, hlines, ofLines_of_first_refused 1 hbefore hline, List.length_map, Nat.add_comm]
  · rw [ofText, String.toList_ofList]
    exact ofLines_documentText document 1

/-- A comment, a blank line and a byte with text after it are read; a digit that is not binary is reported
with the number of its line. -/
theorem remarks_skipped_and_counted :
    (∃ bytes, ofText "# one\r\n\n\t00000001HLT" = .ok bytes ∧ Spell [[], [], "00000001HLT".toList] bytes) ∧
    ∃ before code after, [[], "00000001".toList, "0000002".toList] = before ++ code :: after ∧
      (∀ earlier ∈ before, Accepted earlier) ∧ ¬ Accepted code ∧
      ofText "# one\n00000001\n0000002\n" = .error (.badLine (before.length + 1) (.noDigits code)) := by
  have hread : (Text.lines "# one\r\n\n\t00000001HLT".toList).map codeOf =
      [[], [], "00000001HLT".toList] := by decide +kernel
  have hrefused : (Text.lines "# one\n00000001\n0000002\n".toList).map codeOf =
      [[], "00000001".toList, "0000002".toList] := by decide +kernel
  refine ⟨?_, ?_⟩
  · rw [← hread]
    exact (ofText_grammar.1 _).1 (by rw [hread]; decide +kernel)
  · rw [← hrefused]
    exact (ofText_grammar.1 _).2 (by rw [hrefused]; decide +kernel)

end Image

end Microcomputer
