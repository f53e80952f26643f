import Microcomputer.Proofs.Dispatch

/-!
Arithmetic on bytes, over integers.

* `AluOp.integer?` is what an operation yields, taken modulo 256 where it can leave the range of a byte;
  `compute_eq_value` says that computing on bytes yields the same, and `compute_eq_flags` that a comparison
  yields flags alone.
* `Condition.met` reads the flags bit by bit, and `holds_eq_met` says that the conditions of jumps do.
-/

namespace Microcomputer

/-- The integer that an operation yields for its first register; a comparison yields none. -/
def AluOp.integer? (x y : Nat) : AluOp → Option Int
  | .add => some (((x : Int) + y) % 256)
  | .sub => some (((x : Int) - y) % 256)
  | .mul => some (((x : Int) * y) % 256)
  | .div => some ((x / y : Nat) : Int)
  | .mod => some ((x % y : Nat) : Int)
  | .inc => some (((x : Int) + 1) % 256)
  | .dec => some (((x : Int) - 1) % 256)
  | .and => some ((x &&& y : Nat) : Int)
  | .or => some ((x ||| y : Nat) : Int)
  | .xor => some ((x ^^^ y : Nat) : Int)
  | .not => some (255 - (x : Int))
  | .shl => some (((x : Int) * 2 ^ y) % 256)
  | .shr => some ((x / 2 ^ y : Nat) : Int)
  | .cmp => none

/-- The flags of a comparison: 4 for less, 2 for greater, 1 for equal. -/
def comparison (x y : Nat) : Nat := if x < y then 4 else if y < x then 2 else 1

/-- Whether the flags meet the condition: bit 2 says less, bit 1 greater, bit 0 equal. -/
def Condition.met (flags : Nat) : Condition → Bool
  | .always => true
  | .equal => flags.testBit 0
  | .notEqual => !flags.testBit 0
  | .greater => flags.testBit 1
  | .less => flags.testBit 2
  | .lessOrEqual => flags.testBit 2 || flags.testBit 0
  | .greaterOrEqual => flags.testBit 1 || flags.testBit 0

theorem toNat_shiftLeft_or_zero (a b : UInt8) :
    (if b < 8 then a <<< b else 0).toNat = a.toNat * 2 ^ b.toNat % 256 := by
  have h8 : (8 : UInt8).toNat = 8 := rfl
  split
  · next h =>
    rw [UInt8.lt_iff_toNat_lt, h8] at h
    rw [UInt8.toNat_shiftLeft, Nat.mod_eq_of_lt h, Nat.shiftLeft_eq]
  · next h =>
    rw [UInt8.lt_iff_toNat_lt, h8, Nat.not_lt] at h
    have hdvd : 256 ∣ a.toNat * 2 ^ b.toNat :=
      Dvd.dvd.mul_left (pow_dvd_pow 2 h) _
    exact (Nat.mod_eq_zero_of_dvd hdvd).symm

theorem toNat_shiftRight_or_zero (a b : UInt8) :
    (if b < 8 then a >>> b else 0).toNat = a.toNat / 2 ^ b.toNat := by
  have h8 : (8 : UInt8).toNat = 8 := rfl
  split
  · next h =>
    rw [UInt8.lt_iff_toNat_lt, h8] at h
    rw [UInt8.toNat_shiftRight, Nat.mod_eq_of_lt h, Nat.shiftRight_eq_div_pow]
  · next h =>
    rw [UInt8.lt_iff_toNat_lt, h8, Nat.not_lt] at h
    have hlt : a.toNat < 2 ^ b.toNat :=
      Nat.lt_of_lt_of_le a.toNat_lt (Nat.pow_le_pow_right (by decide) h)
    exact (Nat.div_eq_of_lt hlt).symm

theorem AluOp.compute_eq_value {op : AluOp} {a b v : UInt8} (h : op.compute a b = .ok (.value v)) :
    op.integer? a.toNat b.toNat = some (v.toNat : Int) := by
  have hone : (1 : UInt8).toNat = 1 := rfl
  have ha := a.toNat_lt
  have hb := b.toNat_lt
  cases op with
  | add =>
    cases h
    rw [integer?, UInt8.toNat_add]
    rfl
  | sub =>
    cases h
    rw [integer?, UInt8.toNat_sub]
    congr 1
    omega
  | mul =>
    cases h
    rw [integer?, UInt8.toNat_mul]
    rfl
  | div =>
    rw [compute] at h
    split at h
    · cases h
    · cases h
      rw [integer?, UInt8.toNat_div]
  | mod =>
    rw [compute] at h
    split at h
    · cases h
    · cases h
      rw [integer?, UInt8.toNat_mod]
  | inc =>
    cases h
    rw [integer?, UInt8.toNat_add]
    rfl
  | dec =>
    cases h
    rw [integer?, UInt8.toNat_sub]
    congr 1
    omega
  | and =>
    cases h
    rw [integer?, UInt8.toNat_and]
  | or =>
    cases h
    rw [integer?, UInt8.toNat_or]
  | xor =>
    cases h
    rw [integer?, UInt8.toNat_xor]
  | not =>
    cases h
    rw [integer?, UInt8.toNat_not]
    congr 1
    have : UInt8.size = 256 := rfl
    omega
  | shl =>
    cases h
    rw [integer?, toNat_shiftLeft_or_zero]
    norm_cast
  | shr =>
    cases h
    rw [integer?, toNat_shiftRight_or_zero]
  | cmp => cases h

theorem AluOp.compute_eq_flags {op : AluOp} {a b : UInt8} {f : Flags}
    (h : op.compute a b = .ok (.flags f)) :
    op.integer? a.toNat b.toNat = none ∧ f.bits.toNat = comparison a.toNat b.toNat := by
  cases op with
  | cmp =>
    cases h
    refine ⟨rfl, ?_⟩
    simp only [Flags.ofComparison, comparison, UInt8.lt_iff_toNat_lt]
    split
    · rfl
    · split <;> rfl
  | div | mod =>
    rw [compute] at h
    split at h
    all_goals cases h
  | _ => cases h

theorem Flags.equal_eq (f : Flags) : f.equal = f.bits.toNat.testBit 0 :=
  InterruptController.and_lineBit_bne_zero f.bits 0

theorem Flags.greater_eq (f : Flags) : f.greater = f.bits.toNat.testBit 1 :=
  InterruptController.and_lineBit_bne_zero f.bits 1

theorem Flags.less_eq (f : Flags) : f.less = f.bits.toNat.testBit 2 :=
  InterruptController.and_lineBit_bne_zero f.bits 2

theorem Condition.holds_eq_met (c : Condition) (f : Flags) : c.holds f = c.met f.bits.toNat := by
  cases c <;> simp [holds, met, Flags.equal_eq, Flags.greater_eq, Flags.less_eq]

end Microcomputer
