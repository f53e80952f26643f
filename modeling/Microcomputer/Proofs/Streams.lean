import Microcomputer.Proofs.ListingText
import Microcomputer.Proofs.Loading

/-!
Streams of encoded instructions.

`Canonical` says which instructions decoding can give: their register operands are registers, and an operand
that is not encoded is zero.

* `decode_encode`: such an instruction decodes from its own bytes, whatever comes after them.
* `instructionsFrom_of_holds`: in a memory that holds the bytes of many, a linear sweep meets one after the
  other, each where the one before ends.
* `entriesFrom_of_holds`: a listing of these bytes has an entry for each.
* `stream_decodes` says so of any list that fits into memory, and that the listing, read back, shows them.
-/

namespace Microcomputer

namespace Register

/-- The register that the low bits of a byte name. -/
def ofLowBits (b : UInt8) : Register := ⟨b.toNat % 8, Nat.mod_lt _ (by decide)⟩

theorem toByte_ofLowBits {b : UInt8} (h : b.toNat < 8) : (ofLowBits b).toByte = b := by
  show UInt8.ofNat (b.toNat % 8) = b
  rw [Nat.mod_eq_of_lt h, UInt8.ofNat_toNat]

theorem ofOperand_toByte (r : Register) : ofOperand r.toByte = .ok r := by
  rw [ofOperand, ofByte?_toByte]

end Register

namespace Instruction

section

variable {ρ : Type}

theorem map_map {σ τ : Type} (g : σ → τ) (f : ρ → σ) (i : Instruction ρ) :
    (i.map f).map g = i.map (g ∘ f) := by
  cases i <;> rfl

theorem map_eq_self {f : ρ → ρ} {i : Instruction ρ} (h : ∀ r ∈ i.registers, f r = r) : i.map f = i := by
  cases i <;> simp_all [map, registers]

theorem unread?_map {σ : Type} (f : ρ → σ) (i : Instruction ρ) :
    (i.map f).unread? = i.unread?.map f := by
  cases i with
  | alu op a b => cases op <;> rfl
  | _ => rfl

end

/-- The register operands are registers, and the operand that is not encoded is zero. -/
structure Canonical (i : Instruction UInt8) : Prop where
  registers : ∀ r ∈ i.registers, r.toNat < 8
  unread : ∀ b ∈ i.unread?, b = 0

instance (i : Instruction UInt8) : Decidable i.Canonical :=
  decidable_of_iff ((i.registers.all (·.toNat < 8) && i.unread?.all (· = 0)) = true) <| by
    rw [Bool.and_eq_true, List.all_eq_true, Option.all_eq_true]
    exact ⟨fun h => ⟨fun r hr => of_decide_eq_true (h.1 r hr), fun b hb => of_decide_eq_true (h.2 b hb)⟩,
      fun h => ⟨fun r hr => decide_eq_true (h.registers r hr), fun b hb => decide_eq_true (h.unread b hb)⟩⟩

/-- The instruction with its operands read as registers. -/
def named (i : Instruction UInt8) : Instruction Register := i.map Register.ofLowBits

theorem Canonical.raw_named {i : Instruction UInt8} (h : i.Canonical) : i.named.raw = i := by
  rw [raw, named, map_map]
  exact map_eq_self fun r hr => Register.toByte_ofLowBits (h.registers r hr)

/-! ## One instruction -/

/-- The operand bytes of the encoded form. -/
def encodedOperands : Instruction UInt8 → List UInt8
  | nop | halt | ret | interruptReturn => []
  | push r | pop r | call r | jump _ r | interrupt r | printNumber r | printChar r => [r]
  | loadImmediate r v | addImmediate r v => [r, v]
  | load a b | store a b | printText a b => [a, b]
  | alu op a b => if op.isUnary then [a] else [a, b]

/-- The length that the opcode gives leaves just these operands. -/
theorem take_operands (i : Instruction UInt8) : i.operands.take (i.length - 1) = i.encodedOperands := by
  cases i with
  | alu op a b => cases op <;> (simp only [length, opcode]; rfl)
  | jump c r => cases c <;> (simp only [length, opcode]; rfl)
  | _ => simp only [length, opcode]; rfl

theorem encode_eq (i : Instruction UInt8) : i.encode = i.opcode :: i.encodedOperands := by
  rw [encode, take_operands]

theorem length_eq (i : Instruction UInt8) : i.length = i.encodedOperands.length + 1 := by
  rw [← length_encode, encode_eq, List.length_cons]

theorem length_encodedOperands_le (i : Instruction UInt8) : i.encodedOperands.length ≤ 2 := by
  have hlength := i.length_eq
  have hbounds := i.length_bounds
  omega

theorem read_register {a b : UInt8} {r : Register} (build : Register → Instruction Register)
    (h : [r.toByte] <+: [a, b]) : (Form.register build).read a b = .ok (build r) := by
  obtain rfl : r.toByte = a := (List.cons_prefix_cons.mp h).1
  rw [Form.read, Register.ofOperand_toByte]
  rfl

theorem read_registerAndByte {a b v : UInt8} {r : Register}
    (build : Register → UInt8 → Instruction Register) (h : [r.toByte, v] <+: [a, b]) :
    (Form.registerAndByte build).read a b = .ok (build r v) := by
  obtain ⟨rfl, hv⟩ := List.cons_prefix_cons.mp h
  obtain rfl : v = b := (List.cons_prefix_cons.mp hv).1
  rw [Form.read, Register.ofOperand_toByte]
  rfl

theorem read_twoRegisters {a b : UInt8} {r s : Register}
    (build : Register → Register → Instruction Register) (h : [r.toByte, s.toByte] <+: [a, b]) :
    (Form.twoRegisters build).read a b = .ok (build r s) := by
  obtain ⟨rfl, hs⟩ := List.cons_prefix_cons.mp h
  obtain rfl : s.toByte = b := (List.cons_prefix_cons.mp hs).1
  rw [Form.read, Register.ofOperand_toByte, Register.ofOperand_toByte]
  rfl

/-- An instruction decodes from its opcode and its operands. Whatever else was fetched does not count. -/
theorem decode_encode {i : Instruction Register} (hi : ∀ r ∈ i.unread?, r = .first) {a b : UInt8}
    (h : i.raw.encodedOperands <+: [a, b]) : decode i.opcode a b = .ok i := by
  cases i with
  | nop | halt | ret | interruptReturn => rfl
  | loadImmediate r v => exact read_registerAndByte .loadImmediate h
  | addImmediate r v => exact read_registerAndByte .addImmediate h
  | load r s => exact read_twoRegisters .load h
  | store r s => exact read_twoRegisters .store h
  | printText r s => exact read_twoRegisters .printText h
  | push r => exact read_register .push h
  | pop r => exact read_register .pop h
  | call r => exact read_register .call h
  | interrupt r => exact read_register .interrupt h
  | printNumber r => exact read_register .printNumber h
  | printChar r => exact read_register .printChar h
  | jump c r => cases c <;> exact read_register (.jump _) h
  | alu op r s =>
    cases op with
    | inc | dec | not =>
      obtain rfl : s = .first := hi s rfl
      exact read_register (.alu _ · .first) h
    | _ => exact read_twoRegisters (.alu _) h

end Instruction

/-! ## Many instructions -/

namespace Memory

/-- The bytes stand in consecutive cells from `a` on. -/
def Holds (m : Memory) (a : UInt8) : List UInt8 → Prop
  | [] => True
  | b :: rest => m.read a = b ∧ m.Holds (a + 1) rest

variable {m : Memory} {a : UInt8}

theorem holds_append {bytes more : List UInt8} :
    m.Holds a (bytes ++ more) ↔ m.Holds a bytes ∧ m.Holds (a + UInt8.ofNat bytes.length) more := by
  induction bytes generalizing a with
  | nil => simp [Holds]
  | cons b rest ih =>
    rw [List.cons_append, Holds, Holds, ih, List.length_cons, Nat.add_comm, UInt8.ofNat_add,
      ← UInt8.add_assoc, and_assoc]
    rfl

/-- What is written stays, as long as it does not come round to its own first cell. -/
theorem holds_writeAll (m : Memory) (a : UInt8) {bytes : List UInt8} (h : bytes.length ≤ 256) :
    (m.writeAll a bytes).Holds a bytes := by
  induction bytes generalizing m a with
  | nil => trivial
  | cons b rest ih =>
    rw [List.length_cons] at h
    refine ⟨?_, ih _ _ (by omega)⟩
    have hlast : (a - (a + 1)).toNat = 255 := by
      rw [show a - (a + 1) = 255 by grind]
      rfl
    rw [writeAll, read_writeAll _ _ _ _ (by omega), hlast, List.getElem?_eq_none (by omega)]
    exact read_write_self _ _ _

theorem Holds.prefix_pair {bytes : List UInt8} (h : m.Holds (a + 1) bytes) (hlength : bytes.length ≤ 2) :
    bytes <+: [m.read (a + 1), m.read (a + 2)] := by
  match bytes, h, hlength with
  | [], _, _ => exact List.nil_prefix
  | [x], h, _ =>
    obtain ⟨rfl, -⟩ := h
    exact ⟨[m.read (a + 2)], rfl⟩
  | [x, y], h, _ =>
    obtain ⟨rfl, rfl, -⟩ := h
    rw [UInt8.add_assoc]
    exact List.prefix_refl _

/-- The instruction whose bytes stand at an address is the one that is fetched there. -/
theorem decodeAt_of_holds {i : Instruction UInt8} (hi : i.Canonical) (h : m.Holds a i.encode) :
    m.decodeAt a = .ok i.named := by
  rw [Instruction.encode_eq] at h
  obtain ⟨hopcode, hoperands⟩ := h
  have hunread : ∀ r ∈ i.named.unread?, r = .first := by
    intro r hr
    rw [Instruction.named, Instruction.unread?_map] at hr
    obtain ⟨b, hb, rfl⟩ := Option.map_eq_some_iff.mp hr
    rw [hi.unread b hb]
    rfl
  have hprefix : i.named.raw.encodedOperands <+: [m.read (a + 1), m.read (a + 2)] := by
    rw [hi.raw_named]
    exact hoperands.prefix_pair i.length_encodedOperands_le
  rw [decodeAt, hopcode, ← Instruction.opcode_map Register.ofLowBits i]
  exact Instruction.decode_encode hunread hprefix

/-- The instructions in the next `size` cells, with their addresses. The sweep goes on after each, by as many
cells as it is long, and stops at bytes that do not decode. -/
def instructionsFrom (m : Memory) (a : UInt8) (size : Nat) :
    Except DecodeError (List (UInt8 × Instruction Register)) :=
  if size = 0 then .ok []
  else
    match m.decodeAt a with
    | .error e => .error e
    | .ok i => (m.instructionsFrom (a + UInt8.ofNat i.length) (size - i.length)).map ((a, i) :: ·)
termination_by size
decreasing_by
  have hbounds := i.length_bounds
  omega

end Memory

namespace Instruction

/-- Instructions with their addresses, the first at `a` and each other one after the one before. -/
def placed (a : UInt8) : List (Instruction UInt8) → List (UInt8 × Instruction Register)
  | [] => []
  | i :: rest => (a, i.named) :: placed (a + UInt8.ofNat i.length) rest

theorem raw_placed (a : UInt8) {stream : List (Instruction UInt8)} (h : ∀ i ∈ stream, i.Canonical) :
    ((placed a stream).map fun (_, i) => i.raw) = stream := by
  induction stream generalizing a with
  | nil => rfl
  | cons i rest ih =>
    obtain ⟨hi, hrest⟩ := List.forall_mem_cons.mp h
    rw [placed, List.map_cons, ih _ hrest]
    show i.named.raw :: rest = i :: rest
    rw [hi.raw_named]

section

variable {m : Memory} {a : UInt8} {i : Instruction UInt8} {rest : List (Instruction UInt8)}

theorem holds_cons (h : m.Holds a ((i :: rest).flatMap encode)) :
    m.Holds a i.encode ∧ m.Holds (a + UInt8.ofNat i.length) (rest.flatMap encode) := by
  rw [List.flatMap_cons, Memory.holds_append, length_encode] at h
  exact h

theorem instructionsFrom_of_holds {stream : List (Instruction UInt8)}
    (hcanonical : ∀ i ∈ stream, i.Canonical) (h : m.Holds a (stream.flatMap encode)) :
    m.instructionsFrom a (stream.flatMap encode).length = .ok (placed a stream) := by
  induction stream generalizing a with
  | nil =>
    rw [Memory.instructionsFrom]
    rfl
  | cons i rest ih =>
    obtain ⟨hi, hrest⟩ := List.forall_mem_cons.mp hcanonical
    obtain ⟨hfirst, hothers⟩ := holds_cons h
    have hlength : i.named.length = i.length := length_map _ _
    have hbounds := i.length_bounds
    have hsize : ((i :: rest).flatMap encode).length = i.length + (rest.flatMap encode).length := by
      rw [List.flatMap_cons, List.length_append, length_encode]
    rw [Memory.instructionsFrom, hsize, if_neg (by omega), Memory.decodeAt_of_holds hi hfirst]
    simp only [hlength, Nat.add_sub_cancel_left, ih hrest hothers]
    rfl

theorem entriesFrom_of_holds {stream : List (Instruction UInt8)}
    (hcanonical : ∀ i ∈ stream, i.Canonical) (h : m.Holds a (stream.flatMap encode)) :
    Listing.entriesFrom m a (stream.flatMap encode) =
      (placed a stream).map fun (a, i) => ⟨a, i.raw.assembly, i.raw.encode⟩ := by
  induction stream generalizing a with
  | nil =>
    rw [List.flatMap_nil, Listing.entriesFrom]
    rfl
  | cons i rest ih =>
    obtain ⟨hi, hrest⟩ := List.forall_mem_cons.mp hcanonical
    obtain ⟨hfirst, hothers⟩ := holds_cons h
    have htext : m.disassembleAt a = (i.assembly, i.length) := by
      have hlength : i.named.length = i.length := length_map _ _
      rw [Memory.disassembleAt, Memory.decodeAt_of_holds hi hfirst]
      simp only [hi.raw_named, hlength]
    -- The entry takes the instruction's own bytes off the stream and leaves the rest.
    have hown : i.encodedOperands.length = i.length - 1 := by
      rw [length_eq, Nat.add_sub_cancel]
    rw [List.flatMap_cons, encode_eq, List.cons_append, Listing.entriesFrom, htext]
    simp only [List.take_left' hown, List.drop_left' hown, ih hrest hothers, placed, List.map_cons,
      hi.raw_named, encode_eq]

end

/-- Of instructions that fit into memory, the bytes one after the other from address 0 on decode to just these
instructions, whatever stands after them, and are listed as these, each at its address. The listing, read back,
has an entry for each, whose text is that of the instruction and of no other. -/
theorem stream_decodes {stream : List (Instruction UInt8)} (hcanonical : ∀ i ∈ stream, i.Canonical)
    (hsize : (stream.flatMap encode).length ≤ 256) (m : Memory) :
    let bytes := stream.flatMap encode
    ∃ met, (m.writeAll 0 bytes).instructionsFrom 0 bytes.length = .ok met ∧
      (met.map fun (_, i) => i.raw) = stream ∧
      Listing.entries bytes = (met.map fun (a, i) => ⟨a, i.raw.assembly, i.raw.encode⟩) ∧
      Listing.text bytes = Listing.heading ++ String.join (met.map fun (a, i) =>
        Listing.Entry.line ⟨a, i.raw.assembly, i.raw.encode⟩) ∧
      Listing.ofText? (Listing.text bytes) =
        some (met.map fun (a, i) => ⟨a, i.raw.assembly, i.raw.encode⟩) ∧
      ∀ i ∈ stream, ofAssembly? i.assembly = some i := by
  have hwhole : Listing.addressed (stream.flatMap encode) = stream.flatMap encode :=
    List.take_of_length_le hsize
  have hentries := entriesFrom_of_holds hcanonical (Memory.holds_writeAll .zero 0 hsize)
  refine ⟨placed 0 stream, instructionsFrom_of_holds hcanonical (m.holds_writeAll 0 hsize),
    raw_placed 0 hcanonical, ?_, ?_, ?_, fun i hi => ofAssembly?_assembly (hcanonical i hi).unread⟩
  · rw [Listing.entries, hwhole, hentries]
  · rw [Listing.text, Listing.entries, hwhole, hentries, List.map_map]
    rfl
  · rw [Listing.ofText?_text, Listing.entries, hwhole, hentries]

/-- One instruction of each length, and the two whose length their opcode or their operands do not tell. -/
def mixed : List (Instruction UInt8) :=
  [.alu .not 3 0, .printText 1 2, .jump .greaterOrEqual 7, .halt, .loadImmediate 0 0xFF, .alu .inc 4 0]

/-- The byte after the stream is an opcode's. -/
theorem mixed_decodes :
    ∃ met,
      ((Memory.zero.write 13 0x82).writeAll 0 (mixed.flatMap encode)).instructionsFrom 0 13 = .ok met ∧
        (met.map fun (_, i) => i.raw) = mixed ∧
        ∃ es, Listing.ofText? (Listing.text (mixed.flatMap encode)) = some es ∧
          es.map Listing.Entry.text = ["NOT R3", "PRM R1,R2", "JGE R7", "HLT", "LDI R0,255", "INC R4"] := by
  have hcanonical : ∀ i ∈ mixed, i.Canonical := by decide +kernel
  have hlength : (mixed.flatMap encode).length = 13 := rfl
  obtain ⟨met, hsweep, hraw, -, -, hread, -⟩ :=
    stream_decodes hcanonical (by omega) (Memory.zero.write 13 0x82)
  refine ⟨met, hsweep, hraw, _, hread, ?_⟩
  have htexts : (met.map fun (_, i) => i.raw).map assembly = mixed.map assembly := congrArg _ hraw
  rw [List.map_map] at htexts ⊢
  exact htexts

end Instruction

end Microcomputer
