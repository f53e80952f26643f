import Microcomputer.Register

/-!
Memory: 256 cells addressed by a byte. The top of the address space is reserved. The interrupt vectors
stand at `0xF8..0xFF`, the keyboard latches its last key at `0xF4`, and the stack grows down from `0xF3`.

A saved state may list more cells than a byte can address. They are kept as `surplus`, so that the state
is written back as it was read; nothing reads or changes them, but clearing the memory clears them too. One
that lists fewer is filled up with zeros, and how many cells it has is kept with the state.
-/

namespace Microcomputer

def memorySize : Nat := 256

/-- First cell of the interrupt vectors. -/
def vectorBase : UInt8 := 0xF8

/-- The cell that holds the last key; only the keyboard writes it. -/
def keyAddress : UInt8 := 0xF4

/-- The longest image: every cell below the stack's first slot. -/
def maxImageSize : Nat := stackTop.toNat

/-- An image that does not fit below the stack. -/
structure ImageTooLarge where
  size : Nat
  deriving DecidableEq, Repr

def ImageTooLarge.message (e : ImageTooLarge) : String :=
  s!"program size {e.size} exceeds available space {maxImageSize}"

structure Memory where
  cells : Vector UInt8 256
  surplus : List UInt8
  deriving DecidableEq, Repr

namespace Memory

def zero : Memory := ⟨Vector.replicate 256 0, []⟩

def read (m : Memory) (a : UInt8) : UInt8 := m.cells[a.toFin]

def write (m : Memory) (a v : UInt8) : Memory := { m with cells := m.cells.set a.toNat v a.toNat_lt }

/-- Writes consecutive cells from `a` on, wrapping past the last address. -/
def writeAll (m : Memory) (a : UInt8) : List UInt8 → Memory
  | [] => m
  | v :: rest => (m.write a v).writeAll (a + 1) rest

def clear (m : Memory) : Memory := ⟨Vector.replicate 256 0, m.surplus.map fun _ => 0⟩

/-- The cell with the handler address of an interrupt line, taken modulo eight. -/
def vectorCell (line : UInt8) : UInt8 := vectorBase + (line &&& 7)

/-- Handler address of an interrupt line. -/
def vector (m : Memory) (line : UInt8) : UInt8 := m.read (vectorCell line)

/-- Copies an image to address 0 and leaves every other cell as it was. -/
def load (m : Memory) (image : List UInt8) : Except ImageTooLarge Memory :=
  if image.length > maxImageSize then .error ⟨image.length⟩ else .ok (m.writeAll 0 image)

/-- The addresses from `start` on, at most `count` of them and none past the last cell. -/
def addresses (start : UInt8) (count : Nat) : List UInt8 :=
  (List.range (min count (memorySize - start.toNat))).map fun i => start + UInt8.ofNat i

/-- The addressed cells with their addresses. -/
def dump (m : Memory) (start : UInt8) (count : Nat) : List (UInt8 × UInt8) :=
  (addresses start count).map fun a => (a, m.read a)

/-- All cells in order, the surplus last. -/
def toList (m : Memory) : List UInt8 := m.cells.toList ++ m.surplus

/-- The memory of these cells, with a zero at every address for which there is none. -/
def ofCells (cells : List UInt8) : Memory :=
  ⟨Vector.ofFn fun i => cells[i.val]?.getD 0, cells.drop 256⟩

theorem read_write (m : Memory) (a b v : UInt8) :
    (m.write a v).read b = if a = b then v else m.read b := by
  simp [read, write, Vector.getElem_set, UInt8.toNat_inj]

@[simp] theorem read_write_self (m : Memory) (a v : UInt8) : (m.write a v).read a = v := by
  simp [read_write]

@[simp] theorem surplus_write (m : Memory) (a v : UInt8) : (m.write a v).surplus = m.surplus := rfl

@[simp] theorem read_zero (a : UInt8) : zero.read a = 0 := by
  simp [read, zero]

@[simp] theorem read_clear (m : Memory) (a : UInt8) : m.clear.read a = 0 := by
  simp [read, clear]

/-- A memory is known by what is read at each address, and by its surplus. -/
theorem ext_read {m m' : Memory} (hread : ∀ a, m.read a = m'.read a) (hsurplus : m.surplus = m'.surplus) :
    m = m' := by
  obtain ⟨cells, surplus⟩ := m
  obtain ⟨cells', surplus'⟩ := m'
  obtain rfl : cells = cells' := Vector.ext fun i hi => hread (UInt8.ofNatLT i hi)
  obtain rfl : surplus = surplus' := hsurplus
  rfl

theorem length_toList (m : Memory) : m.toList.length = 256 + m.surplus.length := by
  rw [toList, List.length_append, Vector.length_toList]

/-- Every address stands for a cell of the list. -/
theorem getElem?_toList (m : Memory) (a : UInt8) : m.toList[a.toNat]? = some (m.read a) := by
  have ha : a.toNat < m.cells.toList.length := by
    rw [Vector.length_toList]
    exact a.toNat_lt
  rw [toList, List.getElem?_append_left ha, List.getElem?_eq_getElem ha, Vector.getElem_toList]
  rfl

theorem toList_write (m : Memory) (a v : UInt8) : (m.write a v).toList = m.toList.set a.toNat v := by
  have ha : a.toNat < m.cells.toList.length := by
    rw [Vector.length_toList]
    exact a.toNat_lt
  rw [toList, toList, List.set_append_left _ _ ha, write, Vector.toList_set]

theorem read_ofCells (cells : List UInt8) (a : UInt8) :
    (ofCells cells).read a = cells[a.toNat]?.getD 0 := by
  rw [read, ofCells, Fin.getElem_fin, Vector.getElem_ofFn]
  rfl

/-- The first `n` cells make up the memory again, if there are zeros at the other addresses and no surplus
beyond those cells. -/
theorem ofCells_take {m : Memory} {n : Nat} (hmissing : ∀ a : UInt8, n ≤ a.toNat → m.read a = 0)
    (hsurplus : m.surplus.length = n - 256) : ofCells (m.toList.take n) = m := by
  refine ext_read (fun a => ?_) ?_
  · rw [read_ofCells, List.getElem?_take]
    split
    · rw [getElem?_toList, Option.getD_some]
    · next hn => exact (hmissing a (Nat.not_lt.mp hn)).symm
  · have hcells : m.cells.toList.length = 256 := Vector.length_toList
    show (m.toList.take n).drop 256 = m.surplus
    rw [List.drop_take, toList, List.drop_left' hcells, ← hsurplus, List.take_length]

theorem ofCells_toList (m : Memory) : ofCells m.toList = m := by
  have hnone (a : UInt8) (ha : m.toList.length ≤ a.toNat) : m.read a = 0 := by
    have hlt := a.toNat_lt
    rw [length_toList] at ha
    omega
  have hsurplus : m.surplus.length = m.toList.length - 256 := by
    rw [length_toList, Nat.add_sub_cancel_left]
  have hall := ofCells_take hnone hsurplus
  rwa [List.take_length] at hall

end Memory

end Microcomputer
