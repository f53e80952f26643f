import Microcomputer.Proofs.Footprint
import Microcomputer.Proofs.Replay
import Microcomputer.Proofs.SnapshotText

/-!
What a restored state does.

`access?` accesses a restored state, and gives nothing where the program is aborted at a missing cell. A state
without some of the cells runs like its padding, which has zeros there, until it misses one of them:
`accessAll?_eq`. That an access leaves the zeros alone is `Filled.access`, and that it does not depend on them is
`Patched.accessAll`.

* `restored_alike`: the text of a processor restores it, and nothing that is done to it is aborted.
* `restored_cells`: nothing brings about a cell or loses one. So a restored state has as many as its text
  listed, which need not be 256, and with fewer it depends on what is done whether the program is aborted.
-/

namespace Microcomputer

/-! ## Cells that are there -/

namespace Memory

theorem length_take_toList {m : Memory} {n : Nat} (hsurplus : m.surplus.length = n - 256) :
    (m.toList.take n).length = n := by
  rw [List.length_take, length_toList]
  omega

theorem getElem?_toList_of_lt (m : Memory) {i : Nat} (hi : i < 256) :
    m.toList[i]? = some (m.read (UInt8.ofNat i)) := by
  have hcell := m.getElem?_toList (UInt8.ofNat i)
  rwa [UInt8.toNat_ofNat', Nat.mod_eq_of_lt hi] at hcell

theorem take_toList_congr {m m' : Memory} {n : Nat} (hn : n ≤ 256)
    (hread : ∀ a : UInt8, a.toNat < n → m'.read a = m.read a) : m'.toList.take n = m.toList.take n := by
  refine List.ext_getElem? fun i => ?_
  rw [List.getElem?_take, List.getElem?_take]
  split
  · next hi =>
    have haddress : i < 256 := Nat.lt_of_lt_of_le hi hn
    have htoNat : (UInt8.ofNat i).toNat < n := by
      rwa [UInt8.toNat_ofNat', Nat.mod_eq_of_lt haddress]
    rw [getElem?_toList_of_lt m haddress, getElem?_toList_of_lt m' haddress, hread _ htoNat]
  · rfl

/-- Cells that are filled up to a memory are its first ones. -/
theorem take_toList_ofCells (cells : List UInt8) : (ofCells cells).toList.take cells.length = cells := by
  refine List.ext_getElem? fun i => ?_
  rw [List.getElem?_take]
  split
  · next hi =>
    rcases Nat.lt_or_ge i 256 with haddress | hsurplus
    · rw [getElem?_toList_of_lt _ haddress, read_ofCells, UInt8.toNat_ofNat',
        Nat.mod_eq_of_lt haddress, List.getElem?_eq_getElem hi, Option.getD_some]
    · have hcells : (ofCells cells).cells.toList.length = 256 := Vector.length_toList
      rw [toList, List.getElem?_append_right (by omega), hcells]
      show (cells.drop 256)[i - 256]? = _
      rw [List.getElem?_drop, Nat.add_sub_cancel' hsurplus]
  · next hi => exact (List.getElem?_eq_none (Nat.not_lt.mp hi)).symm

end Memory

namespace Processor

theorem length_surplus_load (p : Processor) (image : List UInt8) :
    (p.load image).1.memory.surplus.length = p.memory.surplus.length := by
  have hclear : p.memory.clear.surplus.length = p.memory.surplus.length := List.length_map _
  unfold load
  split
  · next loaded hload =>
    unfold Memory.load at hload
    split at hload
    · cases hload
    · cases hload
      show (p.memory.clear.writeAll 0 image).surplus.length = _
      rw [Memory.surplus_writeAll, hclear]
  · exact hclear

/-- No operation brings about a cell or loses one. -/
theorem length_surplus_perform (p : Processor) (o : Operation) :
    (p.perform o).memory.surplus.length = p.memory.surplus.length := by
  cases o with
  | event e =>
    cases e with
    | step => exact congrArg List.length p.surplus_step
    | raise | press => rfl
  | load image => exact p.length_surplus_load image
  | reset => exact List.length_map _
  | run max out =>
    have hstep (q : Processor) (hq : q.memory.surplus.length = p.memory.surplus.length) :
        q.step.processor.memory.surplus.length = p.memory.surplus.length :=
      (congrArg List.length q.surplus_step).trans hq
    exact perform_run_keeps hstep max out rfl
  | push v =>
    show (p.push v).1.memory.surplus.length = _
    unfold push
    split <;> rfl
  | pop =>
    show p.pop.1.memory.surplus.length = _
    unfold pop
    split <;> rfl

theorem length_surplus_access (p : Processor) (x : Access) :
    (p.access x).memory.surplus.length = p.memory.surplus.length := by
  cases x with
  | operation o => exact p.length_surplus_perform o
  | write a bytes => exact congrArg List.length (Memory.surplus_writeAll _ _ _)
  | setRegister | setPc | setFlags | read | vector | dump | traceLine | disassembleAt => rfl

/-- The accesses, one after the other, come to none but the first `n` cells. -/
def StaysWithin (n : Nat) (p : Processor) (accesses : List Access) : Prop :=
  p.Along access (fun q x => Within n (q.touched x)) accesses

instance (n : Nat) (p : Processor) (accesses : List Access) : Decidable (p.StaysWithin n accesses) :=
  inferInstanceAs (Decidable (p.Along ..))

/-- With a cell for every address, nothing is missed. -/
theorem staysWithin_of_enough {n : Nat} (h : 256 ≤ n) (p : Processor) (accesses : List Access) :
    p.StaysWithin n accesses := by
  induction accesses generalizing p with
  | nil => trivial
  | cons x rest ih =>
    have hx : Within n (p.touched x) := fun a _ => Nat.lt_of_lt_of_le a.toNat_lt h
    exact ⟨hx, ih (p.access x)⟩

/-- The processor with the first `n` cells of its memory. -/
def cut (n : Nat) (p : Processor) : SavedProcessor := .withCells p (p.memory.toList.take n)

/-- There are zeros in the cells from `n` on, and no surplus beyond the first `n` cells. -/
structure Filled (n : Nat) (p : Processor) : Prop where
  zeros : ∀ a : UInt8, n ≤ a.toNat → p.memory.read a = 0
  surplus : p.memory.surplus.length = n - 256

section

variable {n : Nat} {p q : Processor}

theorem Filled.length_cut (h : p.Filled n) : (p.cut n).cells.length = n :=
  Memory.length_take_toList h.surplus

theorem Filled.padded_cut (h : p.Filled n) : (p.cut n).padded = p := by
  have hmemory : Memory.ofCells (p.memory.toList.take n) = p.memory := Memory.ofCells_take h.zeros h.surplus
  show { p with memory := Memory.ofCells (p.memory.toList.take n) } = p
  rw [hmemory]

/-- Where there is a cell for every address, all of them are cut out. -/
theorem Filled.cut_eq (h : p.Filled n) (hn : 256 ≤ n) : p.cut n = .ofProcessor p := by
  have hlength := p.memory.length_toList
  have hsurplus := h.surplus
  have hall : p.memory.toList.take n = p.memory.toList := List.take_of_length_le (by omega)
  rw [cut, hall]
  rfl

/-- An access of the first `n` cells leaves the others as they are. -/
theorem Filled.access (h : p.Filled n) {x : Access} (hcells : Within n (p.touched x)) :
    (p.access x).Filled n := by
  refine ⟨fun a ha => ?_, (p.length_surplus_access x).trans h.surplus⟩
  obtain ⟨⟨rest, hrest, hleft⟩, -⟩ := (Patched.self n p).access x hcells
  rw [hleft.above ha]
  obtain rfl | rfl := hrest
  · exact h.zeros a ha
  · rfl

theorem Filled.accessAll (h : p.Filled n) {accesses : List Access} (hcells : p.StaysWithin n accesses) :
    (p.accessAll accesses).Filled n := by
  induction accesses generalizing p with
  | nil => exact h
  | cons x rest ih =>
    obtain ⟨hx, hrest⟩ := hcells
    exact ih (h.access hx) hrest

/-- What a patch shows in: neither in the replies nor in the cells below it. -/
theorem Patched.accessAll {bytes : UInt8 → UInt8} (h : p.Patched n bytes q) {accesses : List Access}
    (hcells : p.StaysWithin n accesses) :
    q.replies accesses = p.replies accesses ∧
      ∃ rest, (p.accessAll accesses).Patched n rest (q.accessAll accesses) := by
  induction accesses generalizing p q bytes with
  | nil => exact ⟨rfl, bytes, h⟩
  | cons x later ih =>
    obtain ⟨hx, hlater⟩ := hcells
    obtain ⟨⟨rest, -, hreached⟩, hreply⟩ := h.access x hx
    obtain ⟨hreplies, hall⟩ := ih hreached hlater
    exact ⟨congrArg₂ List.cons hreply hreplies, hall⟩

/-- A patch beyond the cells that are cut out does not matter. -/
theorem Patched.cut_eq {bytes : UInt8 → UInt8} (h : p.Patched n bytes q) (hn : n ≤ 256) :
    q.cut n = p.cut n := by
  have hcells : q.memory.toList.take n = p.memory.toList.take n :=
    Memory.take_toList_congr hn fun a ha => h.read ha
  obtain ⟨m, hm⟩ := h
  exact congrArg (SavedProcessor.withCells p) hcells

end

end Processor

namespace SavedProcessor

open Processor

variable {s t : SavedProcessor}

theorem padded_ofProcessor (p : Processor) : (ofProcessor p).padded = p := by
  show { p with memory := Memory.ofCells p.memory.toList } = p
  rw [Memory.ofCells_toList]

theorem filled_padded (s : SavedProcessor) : s.padded.Filled s.cells.length where
  zeros a ha := by
    show (Memory.ofCells s.cells).read a = 0
    rw [Memory.read_ofCells, List.getElem?_eq_none ha, Option.getD_none]
  surplus := List.length_drop

theorem withCells_padded (s : SavedProcessor) (values : List UInt8) :
    withCells s.padded values = { s with cells := values } := by
  obtain ⟨p, cells, hapart⟩ := s
  rw [withCells, mk.injEq]
  exact ⟨by rw [← hapart, padded], rfl⟩

theorem cut_padded (s : SavedProcessor) : s.padded.cut s.cells.length = s := by
  show withCells s.padded ((Memory.ofCells s.cells).toList.take s.cells.length) = s
  rw [Memory.take_toList_ofCells, withCells_padded]

theorem cut_write (s : SavedProcessor) (a v : UInt8) :
    (s.padded.write a v).cut s.cells.length = { s with cells := s.cells.set a.toNat v } := by
  have hmemory : (s.padded.write a v).memory = (Memory.ofCells s.cells).write a v := rfl
  have hrest (values : List UInt8) : withCells (s.padded.write a v) values = withCells s.padded values := by
    simp only [withCells, Processor.write]
  rw [cut, hmemory, hrest, Memory.toList_write, List.take_set, Memory.take_toList_ofCells, withCells_padded]

/-- A processor differs from the padding of its first cells in the missing ones only. -/
theorem patched_of_cut (n : Nat) (p : Processor) : (p.cut n).padded.Patched n p.memory.read p := by
  have hmemory : (p.cut n).padded.memory = Memory.ofCells (p.memory.toList.take n) := rfl
  have hpatched : (p.cut n).padded.memory.Patched n p.memory.read p.memory := fun a => by
    rw [hmemory, Memory.read_ofCells, List.getElem?_take]
    split
    · rw [Memory.getElem?_toList, Option.getD_some]
    · rfl
  have hrest : { (p.cut n).padded with memory := p.memory } = p := by
    simp only [cut, padded, withCells]
  have hreplaced := Patched.intro p.memory hpatched
  rwa [hrest] at hreplaced

/-! ## Accesses of restored states -/

/-- Accesses a restored state, unless the program is aborted at a missing cell. -/
def access? (s : SavedProcessor) (x : Access) : Option (Reply × SavedProcessor) :=
  let p := s.padded
  if Within s.cells.length (p.touched x) then some (p.reply x, (p.access x).cut s.cells.length) else none

/-- Accesses that follow one another, with all their replies. -/
def accessAll? (s : SavedProcessor) : List Access → Option (List Reply × SavedProcessor)
  | [] => some ([], s)
  | x :: rest => do
    let (reply, t) ← s.access? x
    let (replies, last) ← t.accessAll? rest
    return (reply :: replies, last)

/-- Restores the state that a text holds, and accesses it. -/
def restoreAll? (text : String) (accesses : List Access) : Option (List Reply × SavedProcessor) :=
  ofText? text >>= (·.accessAll? accesses)

/-- As long as no cell is missed, it is the padded processor that is accessed. -/
theorem accessAll?_eq (s : SavedProcessor) (accesses : List Access) :
    s.accessAll? accesses =
      if s.padded.StaysWithin s.cells.length accesses then
        some (s.padded.replies accesses, (s.padded.accessAll accesses).cut s.cells.length)
      else none := by
  induction accesses generalizing s with
  | nil =>
    have hstays : s.padded.StaysWithin s.cells.length [] := trivial
    rw [if_pos hstays]
    exact congrArg (fun t => some ([], t)) s.cut_padded.symm
  | cons x rest ih =>
    unfold accessAll? access?
    by_cases hx : Within s.cells.length (s.padded.touched x)
    · have hreached := s.filled_padded.access hx
      have hlater := ih ((s.padded.access x).cut s.cells.length)
      rw [hreached.padded_cut, hreached.length_cut] at hlater
      simp only [if_pos hx, Option.bind_eq_bind, Option.bind_some, hlater]
      by_cases hrest : (s.padded.access x).StaysWithin s.cells.length rest
      · have hall : s.padded.StaysWithin s.cells.length (x :: rest) := ⟨hx, hrest⟩
        rw [if_pos hrest, if_pos hall]
        rfl
      · have hmissed : ¬s.padded.StaysWithin s.cells.length (x :: rest) := fun hall => hrest hall.2
        rw [if_neg hrest, if_neg hmissed]
        rfl
    · have hmissed : ¬s.padded.StaysWithin s.cells.length (x :: rest) := fun hall => hx hall.1
      rw [if_neg hx, if_neg hmissed]
      rfl

theorem restoreAll?_of_restored {text : String} (h : ofText? text = some s) (accesses : List Access) :
    restoreAll? text accesses = s.accessAll? accesses := by
  rw [restoreAll?, h]
  rfl

theorem accessAll?_of_enough (h : 256 ≤ s.cells.length) (accesses : List Access) :
    s.accessAll? accesses =
      some (s.padded.replies accesses, (s.padded.accessAll accesses).cut s.cells.length) := by
  rw [accessAll?_eq, if_pos (staysWithin_of_enough h s.padded accesses)]

/-- A program is aborted exactly where it comes to a cell that is missing. -/
theorem access?_eq_none_iff (s : SavedProcessor) (x : Access) :
    s.access? x = none ↔ ∃ a ∈ s.padded.touched x, s.cells[a.toNat]? = none := by
  by_cases hwithin : Within s.cells.length (s.padded.touched x)
  · have hsome : (s.access? x).isSome := by
      rw [access?, if_pos hwithin, Option.isSome_some]
    refine iff_of_false (Option.isSome_iff_ne_none.mp hsome) ?_
    rintro ⟨a, ha, hnone⟩
    exact Nat.not_le.mpr (hwithin a ha) (List.getElem?_eq_none_iff.mp hnone)
  · refine iff_of_true (if_neg hwithin) ?_
    simpa [Within] using hwithin

theorem read_padded (s : SavedProcessor) {a : UInt8} (ha : a.toNat < s.cells.length) :
    s.padded.memory.read a = s.cells[a.toNat] := by
  show (Memory.ofCells s.cells).read a = _
  rw [Memory.read_ofCells, List.getElem?_eq_getElem ha, Option.getD_some]

/-- A read gives what the list of cells holds at the place of the address. -/
theorem access?_read (s : SavedProcessor) (a : UInt8) :
    s.access? (.read a) = s.cells[a.toNat]?.map fun v => (.byte v, s) := by
  show (if Within s.cells.length [a] then some (Reply.byte (s.padded.memory.read a), s.padded.cut _) else none) = _
  rw [cut_padded]
  by_cases ha : a.toNat < s.cells.length
  · rw [if_pos (within_singleton.mpr ha), s.read_padded ha, List.getElem?_eq_getElem ha, Option.map_some]
  · have hmissed : ¬Within s.cells.length [a] := fun h => ha (within_singleton.mp h)
    rw [if_neg hmissed, List.getElem?_eq_none (Nat.not_lt.mp ha), Option.map_none]

/-- A write sets what the list of cells holds at the place of the address. -/
theorem access?_write (s : SavedProcessor) (a v : UInt8) :
    s.access? (.write a [v]) =
      if a.toNat < s.cells.length then some (.nothing, { s with cells := s.cells.set a.toNat v }) else none := by
  show (if Within s.cells.length [a] then some (Reply.nothing, (s.padded.write a v).cut _) else none) = _
  by_cases ha : a.toNat < s.cells.length
  · rw [if_pos (within_singleton.mpr ha), if_pos ha, cut_write]
  · have hmissed : ¬Within s.cells.length [a] := fun h => ha (within_singleton.mp h)
    rw [if_neg hmissed, if_neg ha]

/-- A text may list any number of cells, and it makes a machine of 256 cells, whatever is done to it, exactly
if it lists 256. Whatever is done goes through exactly if there is a cell for every address; where there are
fewer, the program is aborted as soon as it comes to a cell that is missing.

As long as that has not happened, there are as many cells as at first, and they are a list that is read and set
at the place of the address. What was done comes to what it comes to on the processor with zeros in the missing
cells, and on every other that begins with the same cells, whatever the missing ones hold. -/
theorem restored_cells {text : String} (h : ofText? text = some s) :
    ((∀ accesses, ∃ replies t, restoreAll? text accesses = some (replies, t) ∧ t.cells.length = 256) ↔
        s.cells.length = 256) ∧
      ((∀ accesses, restoreAll? text accesses ≠ none) ↔ 256 ≤ s.cells.length) ∧
      ∀ accesses replies t, restoreAll? text accesses = some (replies, t) →
        t.cells.length = s.cells.length ∧
          (∀ x, t.access? x = none ↔ ∃ a ∈ t.padded.touched x, t.cells[a.toNat]? = none) ∧
          (∀ a, t.access? (.read a) = t.cells[a.toNat]?.map fun v => (.byte v, t)) ∧
          (∀ a v, t.access? (.write a [v]) =
            if a.toNat < t.cells.length then some (.nothing, { t with cells := t.cells.set a.toNat v })
            else none) ∧
          (s.padded.replies accesses = replies ∧ s.padded.accessAll accesses = t.padded) ∧
          ∀ p : Processor, p.cut s.cells.length = s → s.cells.length ≤ 256 →
            p.replies accesses = replies ∧ (p.accessAll accesses).cut s.cells.length = t := by
  have hrestored := restoreAll?_of_restored h
  have hall : (∀ accesses, restoreAll? text accesses ≠ none) ↔ 256 ≤ s.cells.length := by
    constructor
    · -- A read at the highest address asks for all the cells.
      intro hnever
      have hlast := hnever [.read 255]
      rw [hrestored, accessAll?_eq] at hlast
      have hstays : s.padded.StaysWithin s.cells.length [.read 255] :=
        by_contra fun hmissed => hlast (if_neg hmissed)
      exact within_singleton.mp hstays.1
    · intro henough accesses
      rw [hrestored, accessAll?_of_enough henough]
      exact Option.some_ne_none _
  refine ⟨⟨fun hmachine => ?_, fun hexact accesses => ?_⟩, hall, fun accesses replies t hrun => ?_⟩
  · obtain ⟨replies, t, hnone, hcount⟩ := hmachine []
    rw [hrestored] at hnone
    cases hnone
    exact hcount
  · have hfilled := s.filled_padded.accessAll (staysWithin_of_enough hexact.ge s.padded accesses)
    rw [hrestored, accessAll?_of_enough hexact.ge]
    exact ⟨_, _, rfl, hfilled.length_cut.trans hexact⟩
  · rw [hrestored, accessAll?_eq] at hrun
    split at hrun
    · next hstays =>
      cases hrun
      have hfilled := s.filled_padded.accessAll hstays
      refine ⟨hfilled.length_cut, access?_eq_none_iff _, access?_read _, access?_write _,
        ⟨rfl, hfilled.padded_cut.symm⟩, fun p hp hshort => ?_⟩
      have hpatched := patched_of_cut s.cells.length p
      rw [hp] at hpatched
      obtain ⟨hreplies, rest, hreached⟩ := hpatched.accessAll hstays
      exact ⟨hreplies, hreached.cut_eq hshort⟩
    · cases hrun

/-- The state at power-on, with so many cells. -/
def blank (count : Nat) : SavedProcessor := .withCells powerOn (List.replicate count 0)

theorem padded_blank {count : Nat} (h : count ≤ 256) : (blank count).padded = powerOn := by
  have hmemory : Memory.ofCells (List.replicate count 0) = .zero := by
    refine Memory.ext_read (fun a => ?_) ?_
    · rw [Memory.read_ofCells, List.getElem?_replicate, Memory.read_zero]
      split <;> rfl
    · show (List.replicate count 0).drop 256 = []
      rw [List.drop_replicate, Nat.sub_eq_zero_of_le h]
      rfl
  show { powerOn with memory := Memory.ofCells (List.replicate count 0) } = powerOn
  rw [hmemory]
  rfl

theorem restoreAll?_blank {count : Nat} (h : count ≤ 256) (accesses : List Access) :
    restoreAll? (blank count).text accesses =
      if powerOn.StaysWithin count accesses then
        some (powerOn.replies accesses, (powerOn.accessAll accesses).cut count)
      else none := by
  have hcount : (blank count).cells.length = count := List.length_replicate
  rw [restoreAll?_of_restored (ofText?_text _), accessAll?_eq, padded_blank h, hcount]

/-- As many cells as the first step fetches, and no more. -/
theorem short_restored :
    ofText? (blank 3).text = some (blank 3) ∧ (blank 3).cells.length = 3 ∧
      (∃ t, restoreAll? (blank 3).text [.operation (.event .step)] = some ([.step none (.ok .nop)], t) ∧
        t.cells.length = 3 ∧ t.access? (.read 2) = some (.byte 0, t) ∧ t.access? (.read 3) = none) ∧
      ¬∀ accesses, restoreAll? (blank 3).text accesses ≠ none := by
  have hrestored := ofText?_text (blank 3)
  have hcount : (blank 3).cells.length = 3 := List.length_replicate
  obtain ⟨-, hall, hkept⟩ := restored_cells hrestored
  have hstep : restoreAll? (blank 3).text [.operation (.event .step)] =
      some ([.step none (.ok .nop)], (powerOn.accessAll [.operation (.event .step)]).cut 3) := by
    rw [restoreAll?_blank (by decide), if_pos (by decide)]
    rfl
  obtain ⟨hlength, -, hread, -⟩ := hkept _ _ _ hstep
  refine ⟨hrestored, hcount, ⟨_, hstep, hlength, hread 2, hread 3⟩, fun hnever => ?_⟩
  exact absurd (hall.mp hnever) (by decide)

/-- Not every text of a state lists 256 cells. One without any is accepted, and the first step is aborted; one
with three lets one instruction pass; and one with 257 makes a machine of 257 cells. -/
theorem cells_of_any_number :
    (ofText? (blank 0).text = some (blank 0) ∧ (blank 0).cells.length = 0 ∧
        restoreAll? (blank 0).text [.operation (.event .step)] = none) ∧
      (ofText? (blank 3).text = some (blank 3) ∧ (blank 3).cells.length = 3 ∧
        restoreAll? (blank 3).text [.operation (.event .step)] ≠ none ∧
        restoreAll? (blank 3).text [.operation (.event .step), .operation (.event .step)] = none) ∧
      ofText? (blank 257).text = some (blank 257) ∧ (blank 257).cells.length = 257 := by
  have hrestored (count : Nat) : ofText? (blank count).text = some (blank count) := ofText?_text _
  have hcount (count : Nat) : (blank count).cells.length = count := List.length_replicate
  refine ⟨⟨hrestored 0, hcount 0, ?_⟩, ⟨hrestored 3, hcount 3, ?_, ?_⟩, hrestored 257, hcount 257⟩
  · rw [restoreAll?_blank (by decide), if_neg (by decide)]
  · rw [restoreAll?_blank (by decide), if_pos (by decide)]
    exact Option.some_ne_none _
  · rw [restoreAll?_blank (by decide), if_neg (by decide)]

end SavedProcessor

namespace Processor

/-- The text of a processor, whatever its state, restores it in every field and with every cell: so whatever is
done to it afterwards goes through, and prints, returns and leaves what it does on the processor that was
saved. -/
theorem restored_alike (p : Processor) :
    Json.ofText? p.text = some (Snapshot.processor p) ∧
      (SavedProcessor.ofText? p.text = some (.ofProcessor p) ∧ (SavedProcessor.ofProcessor p).padded = p) ∧
      ∀ accesses : List Access,
        SavedProcessor.restoreAll? p.text accesses =
          some (p.replies accesses, .ofProcessor (p.accessAll accesses)) := by
  have hplain : (Snapshot.processor p).IsPlain := Snapshot.isPlain_saved _
  have hrestored : SavedProcessor.ofText? p.text = some (.ofProcessor p) := SavedProcessor.ofText?_text _
  have hpadded := SavedProcessor.padded_ofProcessor p
  refine ⟨Json.ofText?_compact hplain, ⟨hrestored, hpadded⟩, fun accesses => ?_⟩
  have hcount : (SavedProcessor.ofProcessor p).cells.length = 256 + p.memory.surplus.length :=
    Memory.length_toList _
  have henough : 256 ≤ (SavedProcessor.ofProcessor p).cells.length := by omega
  have hfilled := (SavedProcessor.ofProcessor p).filled_padded.accessAll
    (staysWithin_of_enough henough _ accesses)
  rw [SavedProcessor.restoreAll?_of_restored hrestored, SavedProcessor.accessAll?_of_enough henough,
    hfilled.cut_eq henough, hpadded]

end Processor

end Microcomputer
