import Microcomputer.Flags

/-!
The eight general registers and the register file around them: the program counter, the opcode last
executed and the flags. By convention register 5 holds the interrupt mask and register 7 points at the
top of the stack.
-/

namespace Microcomputer

/-- The name of a general register. -/
abbrev Register := Fin 8

namespace Register

def interruptMask : Register := 5
def stackPointer : Register := 7

/-- The first register, which also fills an operand that is not read. -/
def first : Register := ⟨0, by decide⟩

/-- All registers in order. -/
def all : List Register := [first, 1, 2, 3, 4, 5, 6, 7]

def ofByte? (b : UInt8) : Option Register :=
  if h : b.toNat < 8 then some ⟨b.toNat, h⟩ else none

def toByte (r : Register) : UInt8 := UInt8.ofNat r.val

theorem toByte_toNat (r : Register) : r.toByte.toNat = r.val := by
  simp only [toByte, UInt8.toNat_ofNat']
  omega

theorem ofByte?_toByte (r : Register) : ofByte? r.toByte = some r := by
  simp [ofByte?, toByte_toNat]

theorem ofByte?_eq_none_iff (b : UInt8) : ofByte? b = none ↔ 7 < b.toNat := by
  unfold ofByte?
  split <;> simp <;> omega

end Register

/-- The first slot of the empty stack. It is also the number of cells that an image may fill. -/
def stackTop : UInt8 := 0xF3

structure RegisterFile where
  bank : Vector UInt8 8
  /-- Address of the next instruction. -/
  pc : UInt8
  /-- Opcode of the last instruction that completed. -/
  ir : UInt8
  flags : Flags
  deriving DecidableEq, Repr

namespace RegisterFile

def get (f : RegisterFile) (r : Register) : UInt8 := f.bank[r]

def set (f : RegisterFile) (r : Register) (v : UInt8) : RegisterFile :=
  { f with bank := f.bank.set r v }

/-- All registers clear, but for the pointer to the empty stack. -/
def powerOn : RegisterFile where
  bank := #v[0, 0, 0, 0, 0, 0, 0, stackTop]
  pc := 0
  ir := 0
  flags := .empty

def sp (f : RegisterFile) : UInt8 := f.get .stackPointer
def mask (f : RegisterFile) : UInt8 := f.get .interruptMask

theorem get_set (f : RegisterFile) (r s : Register) (v : UInt8) :
    (f.set r v).get s = if r = s then v else f.get s := by
  simp [get, set, Vector.getElem_set, Fin.ext_iff]

@[simp] theorem get_set_self (f : RegisterFile) (r : Register) (v : UInt8) :
    (f.set r v).get r = v := by simp [get_set]

@[simp] theorem pc_set (f : RegisterFile) (r : Register) (v : UInt8) : (f.set r v).pc = f.pc := rfl
@[simp] theorem ir_set (f : RegisterFile) (r : Register) (v : UInt8) : (f.set r v).ir = f.ir := rfl
@[simp] theorem flags_set (f : RegisterFile) (r : Register) (v : UInt8) :
    (f.set r v).flags = f.flags := rfl

end RegisterFile

end Microcomputer
