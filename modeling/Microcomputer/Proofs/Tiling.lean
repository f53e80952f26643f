import Microcomputer.Proofs.Opcodes
import Microcomputer.Proofs.Streams

/-!
A listing loses no byte of the image.

Most images are not streams of encoded instructions: bytes that do not decode stand among them, and the image
may end within an instruction.

* `encode_of_decode`: what is decoded encodes to the bytes that it was decoded from, as many as it is long.
* `Entry.Lists` says what an entry shows of the memory at its address, `SequentialFrom` that each entry stands
  where the one before ends; `entriesFrom_tile` proves both of a listing's tail.
* `entries_tile_image`: the entries tile the part of the image that has addresses, and the printed listing shows
  them.
-/

namespace Microcomputer

/-! ## Decoding and encoding -/

/-- A register operand that is accepted is the register of its byte. -/
theorem Register.of_bind_ofOperand {α : Type} {b : UInt8} {next : Register → Except DecodeError α} {x : α}
    (h : (ofOperand b >>= next) = .ok x) : ∃ r, r.toByte = b ∧ next r = .ok x := by
  unfold ofOperand at h
  split at h
  · next r hr =>
    refine ⟨r, ?_, h⟩
    unfold ofByte? at hr
    split at hr
    · cases hr
      exact UInt8.ofNat_toNat
    · cases hr
  · cases h

namespace Form

/-- The operands of whatever the form builds are encoded as they were read. -/
def Spells : Form → Prop
  | bare i => i.raw.encodedOperands = []
  | register build => ∀ r, (build r).raw.encodedOperands = [r.toByte]
  | registerAndByte build => ∀ r v, (build r v).raw.encodedOperands = [r.toByte, v]
  | twoRegisters build => ∀ r s, (build r s).raw.encodedOperands = [r.toByte, s.toByte]

theorem spells_of_form? {op : UInt8} {form : Form} (h : Opcode.form? op = some form) : form.Spells := by
  unfold Opcode.form? at h
  split at h
  all_goals cases h
  all_goals
    simp [Spells, Opcode.unary, Opcode.binary, Opcode.jump, Instruction.raw, Instruction.map,
      Instruction.encodedOperands, AluOp.isUnary]

/-- What holds of all that the form builds holds of what it reads. -/
def Forall (P : Instruction Register → Prop) : Form → Prop
  | bare i => P i
  | register build => ∀ r, P (build r)
  | registerAndByte build => ∀ r v, P (build r v)
  | twoRegisters build => ∀ r s, P (build r s)

theorem Forall.of_read {P : Instruction Register → Prop} {form : Form} (hform : form.Forall P) {a b : UInt8}
    {i : Instruction Register} (h : form.read a b = .ok i) : P i := by
  cases form with
  | bare j =>
    cases h
    exact hform
  | register build =>
    obtain ⟨r, -, hbuild⟩ := Register.of_bind_ofOperand h
    cases hbuild
    exact hform r
  | registerAndByte build =>
    obtain ⟨r, -, hbuild⟩ := Register.of_bind_ofOperand h
    cases hbuild
    exact hform r b
  | twoRegisters build =>
    obtain ⟨r, -, hrest⟩ := Register.of_bind_ofOperand h
    obtain ⟨s, -, hbuild⟩ := Register.of_bind_ofOperand hrest
    cases hbuild
    exact hform r s

theorem forall_unread_of_form? {op : UInt8} {form : Form} (h : Opcode.form? op = some form) :
    form.Forall fun i => ∀ b ∈ i.raw.unread?, b = 0 := by
  have hfirst : Register.first.toByte = 0 := rfl
  unfold Opcode.form? at h
  split at h
  all_goals cases h
  all_goals
    simp [Forall, Opcode.unary, Opcode.binary, Opcode.jump, Instruction.raw, Instruction.map,
      Instruction.unread?, AluOp.isUnary, hfirst]

theorem Spells.prefix_of_read {form : Form} (hform : form.Spells) {a b : UInt8} {i : Instruction Register}
    (h : form.read a b = .ok i) : i.raw.encodedOperands <+: [a, b] := by
  cases form with
  | bare j =>
    cases h
    rw [show i.raw.encodedOperands = [] from hform]
    exact List.nil_prefix
  | register build =>
    obtain ⟨r, rfl, hbuild⟩ := Register.of_bind_ofOperand h
    cases hbuild
    rw [hform r]
    exact ⟨[b], rfl⟩
  | registerAndByte build =>
    obtain ⟨r, rfl, hbuild⟩ := Register.of_bind_ofOperand h
    cases hbuild
    exact ⟨[], (List.append_nil _).trans (hform r b)⟩
  | twoRegisters build =>
    obtain ⟨r, rfl, hrest⟩ := Register.of_bind_ofOperand h
    obtain ⟨s, rfl, hbuild⟩ := Register.of_bind_ofOperand hrest
    cases hbuild
    exact ⟨[], (List.append_nil _).trans (hform r s)⟩

end Form

namespace Instruction

/-- An instruction encodes to the bytes that it was decoded from. Bytes past its length do not count. -/
theorem encode_of_decode {op a b : UInt8} {i : Instruction Register} (h : decode op a b = .ok i) :
    i.raw.encode = [op, a, b].take i.length := by
  have hopcode : i.raw.opcode = op := (opcode_map _ _).trans (opcode_of_decode h)
  have hlength : i.length = i.raw.encode.length := by
    rw [length_encode, raw, length_map]
  unfold decode at h
  split at h
  · next form hform =>
    have hoperands := (Form.spells_of_form? hform).prefix_of_read h
    rw [hlength, ← List.prefix_iff_eq_take, encode_eq, hopcode]
    exact List.cons_prefix_cons.mpr ⟨rfl, hoperands⟩
  · cases h

/-- What is decoded is read back from its text. -/
theorem ofAssembly?_of_decode {op a b : UInt8} {i : Instruction Register} (h : decode op a b = .ok i) :
    ofAssembly? i.raw.assembly = some i.raw := by
  apply ofAssembly?_assembly
  unfold decode at h
  split at h
  · next form hform => exact (Form.forall_unread_of_form? hform).of_read h
  · cases h

end Instruction

/-! ## Entries -/

namespace Memory

variable {m : Memory} {a : UInt8} {left : List UInt8}

/-- The bytes that stand from an address on are the cells there, so far as an instruction reaches. -/
theorem Holds.take_eq (h : m.Holds a left) {n : Nat} (hn : n ≤ 3) (hleft : n ≤ left.length) :
    left.take n = [m.read a, m.read (a + 1), m.read (a + 2)].take n := by
  match n, left, h, hn, hleft with
  | 0, _, _, _, _ => rfl
  | 1, _ :: _, ⟨rfl, _⟩, _, _ => rfl
  | 2, _ :: _ :: _, ⟨rfl, rfl, _⟩, _, _ => rfl
  | 3, _ :: _ :: _ :: _, ⟨rfl, rfl, rfl, _⟩, _, _ =>
    rw [UInt8.add_assoc]
    rfl

theorem Holds.drop (h : m.Holds a left) {n : Nat} (hleft : n ≤ left.length) :
    m.Holds (a + UInt8.ofNat n) (left.drop n) := by
  rw [← List.take_append_drop n left, holds_append, List.length_take_of_le hleft] at h
  exact h.2

end Memory

namespace Listing

/-- An entry shows the instruction that decodes at its address, with as many of its bytes as there are left,
or the single byte that does not decode. -/
inductive Entry.Lists (m : Memory) (left : Nat) (e : Entry) : Prop
  | instruction (i : Instruction Register) (decode : m.decodeAt e.address = .ok i)
      (text : e.text = i.raw.assembly) (bytes : e.bytes = i.raw.encode.take (min i.length left))
  | data (refused : DecodeError) (decode : m.decodeAt e.address = .error refused)
      (text : e.text = "DB " ++ Text.address (m.read e.address)) (bytes : e.bytes = [m.read e.address])

/-- The first entry stands at `a`, and each other one where the bytes of the one before end. -/
def SequentialFrom (a : Nat) : List Entry → Prop
  | [] => True
  | e :: rest => e.address.toNat = a ∧ SequentialFrom (a + e.bytes.length) rest

section

variable {m : Memory} {a : UInt8} {left : List UInt8}

/-- The entry at an address where bytes are left. -/
def entryAt (m : Memory) (a : UInt8) (left : List UInt8) : Entry :=
  ⟨a, (m.disassembleAt a).1, left.take (m.disassembleAt a).2⟩

theorem entriesFrom_of_ne_nil (h : left ≠ []) :
    entriesFrom m a left =
      entryAt m a left ::
        entriesFrom m (a + UInt8.ofNat (m.disassembleAt a).2) (left.drop (m.disassembleAt a).2) := by
  have hsize := (m.disassembleAt_size a).1
  cases left with
  | nil => exact absurd rfl h
  | cons byte rest =>
    rw [entriesFrom, entryAt]
    generalize m.disassembleAt a = here at hsize ⊢
    obtain ⟨text, size⟩ := here
    obtain ⟨k, rfl⟩ := Nat.exists_eq_add_of_le' hsize
    rfl

theorem lists_entryAt (hholds : m.Holds a left) (hleft : left ≠ []) :
    (entryAt m a left).Lists m left.length := by
  cases hdecode : m.decodeAt a with
  | ok i =>
    have hsize : m.disassembleAt a = (i.raw.assembly, i.length) := by
      rw [Memory.disassembleAt, hdecode]
    refine .instruction i hdecode (congrArg Prod.fst hsize) ?_
    have hthree : min i.length left.length ≤ 3 := Nat.le_trans (Nat.min_le_left _ _) i.length_bounds.2
    rw [entryAt, hsize, Instruction.encode_of_decode hdecode, List.take_take, Nat.min_right_comm,
      Nat.min_self, ← hholds.take_eq hthree (Nat.min_le_right _ _)]
    exact List.take_eq_take_min
  | error refused =>
    have hsize : m.disassembleAt a = ("DB " ++ Text.address (m.read a), 1) := by
      rw [Memory.disassembleAt, hdecode]
    refine .data refused hdecode (congrArg Prod.fst hsize) ?_
    rw [entryAt, hsize, hholds.take_eq (by decide) (List.length_pos_iff.mpr hleft)]
    rfl

/-- Of bytes that stand in memory from `a` on, each goes into one entry, in order. -/
theorem entriesFrom_tile (hholds : m.Holds a left) (hroom : a.toNat + left.length ≤ 256) :
    SequentialFrom a.toNat (entriesFrom m a left) ∧
      (entriesFrom m a left).flatMap Entry.bytes = left ∧
      (entriesFrom m a left).length ≤ left.length ∧
      ∀ e ∈ entriesFrom m a left,
        e.bytes ≠ [] ∧ e.Lists m (a.toNat + left.length - e.address.toNat) := by
  induction hn : left.length using Nat.strongRecOn generalizing a left with
  | ind n ih =>
    subst hn
    by_cases hleft : left = []
    · subst hleft
      rw [entriesFrom]
      exact ⟨trivial, rfl, Nat.zero_le _, fun e he => absurd he List.not_mem_nil⟩
    · have hpos := List.length_pos_iff.mpr hleft
      have hsize := (m.disassembleAt_size a).1
      have hbytes : (entryAt m a left).bytes = left.take (m.disassembleAt a).2 := rfl
      have hentry : (entryAt m a left).Lists m (a.toNat + left.length - a.toNat) := by
        rw [Nat.add_sub_cancel_left]
        exact lists_entryAt hholds hleft
      have hsome : (entryAt m a left).bytes ≠ [] := by
        rw [hbytes, ← List.length_pos_iff, List.length_take]
        omega
      rw [entriesFrom_of_ne_nil hleft]
      generalize (m.disassembleAt a).2 = size at hsize hbytes ⊢
      rcases Nat.lt_or_ge size left.length with hmore | hlast
      · -- Bytes are left after this entry, and the address of the next has not come round.
        have hnext : (a + UInt8.ofNat size).toNat = a.toNat + size := by
          rw [UInt8.toNat_add, UInt8.toNat_ofNat']
          omega
        have hdrop : (left.drop size).length = left.length - size := List.length_drop
        obtain ⟨hseq, hflat, hlength, hlists⟩ :=
          ih (left.drop size).length (by omega) (hholds.drop (Nat.le_of_lt hmore)) (by omega) rfl
        rw [hnext] at hseq hlists
        refine ⟨⟨rfl, ?_⟩, ?_, ?_, ?_⟩
        · rw [hbytes, List.length_take_of_le (Nat.le_of_lt hmore)]
          exact hseq
        · rw [List.flatMap_cons, hbytes, hflat, List.take_append_drop]
        · rw [List.length_cons]
          omega
        · intro e he
          rcases List.mem_cons.mp he with rfl | hrest
          · exact ⟨hsome, hentry⟩
          · obtain ⟨hne, hlisted⟩ := hlists e hrest
            rw [hdrop, show a.toNat + size + (left.length - size) = a.toNat + left.length by omega] at hlisted
            exact ⟨hne, hlisted⟩
      · rw [List.drop_of_length_le hlast, entriesFrom]
        refine ⟨⟨rfl, trivial⟩, ?_, hpos, ?_⟩
        · rw [List.flatMap_singleton, hbytes, List.take_of_length_le hlast]
        · intro e he
          obtain rfl := List.mem_singleton.mp he
          exact ⟨hsome, hentry⟩

end

/-- The entries of a listing tile the part of the image that has addresses: one after the other they hold
its bytes and nothing else, and each shows what stands in memory at its address. The listing, read back, is these
entries, and an entry's text is read back as the instruction. -/
theorem entries_tile_image (image : List UInt8) :
    let bytes := image.take 256
    let m := Memory.zero.writeAll 0 bytes
    let es := entries image
    (∀ a, m.read a = (image[a.toNat]?).getD 0) ∧
      text image = heading ++ String.join (es.map Entry.line) ∧
      ofText? (text image) = some es ∧
      SequentialFrom 0 es ∧ es.flatMap Entry.bytes = bytes ∧ es.length ≤ bytes.length ∧
      ∀ e ∈ es, e.bytes ≠ [] ∧ e.Lists m (bytes.length - e.address.toNat) ∧
        ∀ i, m.decodeAt e.address = .ok i → Instruction.ofAssembly? e.text = some i.raw := by
  have hlength : (image.take 256).length ≤ 256 := List.length_take_le _ _
  obtain ⟨hseq, hflat, hcount, hlists⟩ :=
    entriesFrom_tile (Memory.holds_writeAll .zero 0 hlength) (a := 0)
      (Nat.le_trans (Nat.le_of_eq (Nat.zero_add _)) hlength)
  refine ⟨fun a => ?_, rfl, ofText?_text image, hseq, hflat, hcount, fun e he => ?_⟩
  · rw [Memory.read_writeAll _ _ _ _ hlength, Memory.read_zero, UInt8.sub_zero,
      List.getElem?_take_of_lt a.toNat_lt]
  · obtain ⟨hne, hlisted⟩ := hlists e he
    rw [show (0 : UInt8).toNat = 0 from rfl, Nat.zero_add] at hlisted
    refine ⟨hne, hlisted, fun i hi => ?_⟩
    cases hlisted with
    | instruction j hdecode htext =>
      obtain rfl : j = i := Except.ok.inj (hdecode.symm.trans hi)
      rw [htext]
      exact Instruction.ofAssembly?_of_decode hi
    | data refused hdecode => cases hdecode.symm.trans hi

end Listing

end Microcomputer
