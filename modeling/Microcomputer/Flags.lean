/-!
The flags register. A comparison sets exactly one of three bits, laid out as `0b00000LGE`; the other
five bits are carried along unread, since any byte may be popped into the register.
-/

namespace Microcomputer

structure Flags where
  bits : UInt8
  deriving DecidableEq, Repr, Inhabited

namespace Flags

def equalBit : UInt8 := 1
def greaterBit : UInt8 := 2
def lessBit : UInt8 := 4

def empty : Flags := ⟨0⟩

def equal (f : Flags) : Bool := f.bits &&& equalBit != 0
def greater (f : Flags) : Bool := f.bits &&& greaterBit != 0
def less (f : Flags) : Bool := f.bits &&& lessBit != 0

/-- The flags of an unsigned comparison: exactly one of the three bits. -/
def ofComparison (a b : UInt8) : Flags :=
  if a < b then ⟨lessBit⟩ else if b < a then ⟨greaterBit⟩ else ⟨equalBit⟩

/-- The three bits as letters, a dash for each bit that is clear. -/
def text (f : Flags) : String :=
  let letter (set : Bool) (c : Char) := if set then c else '-'
  "FL=" ++ String.ofList [letter f.less 'L', letter f.greater 'G', letter f.equal 'E']

theorem reads_lessBit : (⟨lessBit⟩ : Flags).equal = false ∧ (⟨lessBit⟩ : Flags).greater = false ∧
    (⟨lessBit⟩ : Flags).less = true := by decide

theorem reads_greaterBit : (⟨greaterBit⟩ : Flags).equal = false ∧
    (⟨greaterBit⟩ : Flags).greater = true ∧ (⟨greaterBit⟩ : Flags).less = false := by decide

theorem reads_equalBit : (⟨equalBit⟩ : Flags).equal = true ∧ (⟨equalBit⟩ : Flags).greater = false ∧
    (⟨equalBit⟩ : Flags).less = false := by decide

theorem equal_ofComparison (a b : UInt8) : (ofComparison a b).equal = decide (a = b) := by
  unfold ofComparison
  split
  · next h => simp [reads_lessBit, UInt8.ne_of_lt h]
  · next h =>
    split
    · next h' => simp [reads_greaterBit, (UInt8.ne_of_lt h').symm]
    · next h' => simp [reads_equalBit, UInt8.le_antisymm (UInt8.not_lt.1 h') (UInt8.not_lt.1 h)]

theorem less_ofComparison (a b : UInt8) : (ofComparison a b).less = decide (a < b) := by
  unfold ofComparison
  split
  · next h => simp [reads_lessBit, h]
  · next h => split <;> simp [reads_greaterBit, reads_equalBit, h]

theorem greater_ofComparison (a b : UInt8) : (ofComparison a b).greater = decide (b < a) := by
  unfold ofComparison
  split
  · next h => simp [reads_lessBit, UInt8.lt_asymm h]
  · split
    · next h => simp [reads_greaterBit, h]
    · next h => simp [reads_equalBit, h]

end Flags

end Microcomputer
