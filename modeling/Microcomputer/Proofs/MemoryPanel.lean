import Mathlib.Data.List.Basic
import Microcomputer.Debugger.View
import Microcomputer.Proofs.Columns
import Microcomputer.Proofs.Picture
import Microcomputer.Proofs.Replay

/-!
The memory panel of the debugger's view, read back.

* `scroll_performAll_le`: whatever is done, the first row in view is a row of memory.
* `memoryContent_eq` cuts the inside of the panel out of the whole view.
* `readRow` reads a row of the panel as the cells that it shows, and nothing off a blank row:
  `readRow_memoryText`.
* `style_contentRow` says which style each column has; `cellStyle_eq_yellow` and `cellStyle_eq_green` what the
  two bright ones mean.
* `memory_read_back` puts them together.
-/

namespace Microcomputer

namespace Debugger

open Screen

/-! ## Reading a row -/

/-- How a row of memory reads: its address, then its bytes with a blank behind each. -/
def memoryText (base : UInt8) (bytes : List UInt8) : List Char :=
  (Text.hex base ++ ": ").toList ++ bytes.flatMap fun v => (Text.hex v ++ " ").toList

/-- The bytes at the beginning of a text, each two digits and a blank. -/
def readBytes : List Char → List UInt8
  | high :: low :: ' ' :: rest =>
    match Text.readHex? high low with
    | some v => v :: readBytes rest
    | none => []
  | _ => []

/-- The cells that a row shows, with their addresses. A text that does not begin with an address shows
none. -/
def readRow : List Char → List (UInt8 × UInt8)
  | high :: low :: ':' :: ' ' :: rest =>
    match Text.readHex? high low with
    | some base => (readBytes rest).mapIdx fun j v => (base + UInt8.ofNat j, v)
    | none => []
  | _ => []

theorem readBytes_hex (v : UInt8) (rest : List Char) :
    readBytes ((Text.hex v ++ " ").toList ++ rest) = v :: readBytes rest := by
  rw [Text.toList_hex_append]
  show readBytes (_ :: _ :: ' ' :: rest) = _
  rw [readBytes, Text.readHex?_upperDigit]

theorem readRow_hex (base : UInt8) (rest : List Char) :
    readRow ((Text.hex base ++ ": ").toList ++ rest) =
      (readBytes rest).mapIdx fun j v => (base + UInt8.ofNat j, v) := by
  rw [Text.toList_hex_append]
  show readRow (_ :: _ :: ':' :: ' ' :: rest) = _
  rw [readRow, Text.readHex?_upperDigit]

theorem readBytes_blank (n : Nat) : readBytes (List.replicate n ' ') = [] := by
  match n with
  | 0 | 1 | 2 => rfl
  | n + 3 => rfl

theorem readRow_blank (n : Nat) : readRow (List.replicate n ' ') = [] := by
  match n with
  | 0 | 1 | 2 | 3 => rfl
  | n + 4 => rfl

theorem readBytes_append (bytes : List UInt8) (n : Nat) :
    readBytes ((bytes.flatMap fun v => (Text.hex v ++ " ").toList) ++ List.replicate n ' ') = bytes := by
  induction bytes with
  | nil => exact readBytes_blank n
  | cons v rest ih =>
    rw [List.flatMap_cons, List.append_assoc, readBytes_hex, ih]

/-- A row is read back whatever blanks follow it. -/
theorem readRow_memoryText (base : UInt8) (bytes : List UInt8) (n : Nat) :
    readRow (memoryText base bytes ++ List.replicate n ' ') =
      bytes.mapIdx fun j v => (base + UInt8.ofNat j, v) := by
  rw [memoryText, List.append_assoc, readRow_hex, readBytes_append]

/-! ## A row of the panel -/

/-- Blocks of one width, each of one value throughout. -/
def blocks {α : Type} (f : Nat → α) (count width : Nat) : List α :=
  (List.range count).flatMap fun j => List.replicate width (f j)

theorem blocks_succ {α : Type} (f : Nat → α) (count width : Nat) :
    blocks f (count + 1) width = blocks f count width ++ List.replicate width (f count) := by
  rw [blocks, List.range_succ, List.flatMap_append, List.flatMap_singleton]
  rfl

theorem length_blocks {α : Type} (f : Nat → α) (count width : Nat) :
    (blocks f count width).length = count * width := by
  induction count with
  | zero => rw [Nat.zero_mul]; rfl
  | succ count ih => rw [blocks_succ, List.length_append, ih, List.length_replicate, Nat.succ_mul]

theorem getElem?_blocks {α : Type} (f : Nat → α) (count width : Nat) {x : Nat} (h : x < count * width) :
    (blocks f count width)[x]? = some (f (x / width)) := by
  induction count with
  | zero => omega
  | succ count ih =>
    rw [blocks_succ]
    rcases Nat.lt_or_ge x (count * width) with hx | hx
    · rw [List.getElem?_append_left (by rwa [length_blocks])]
      exact ih hx
    · have hlast : x / width = count := Nat.div_eq_of_lt_le hx h
      rw [Nat.succ_mul] at h
      rw [List.getElem?_append_right (by rwa [length_blocks]), length_blocks,
        List.getElem?_replicate_of_lt (by omega), hlast]

section

variable {r j x : Nat}

/-- The address of a byte by its row and its place there. -/
def byteAddress (r j : Nat) : UInt8 := UInt8.ofNat (16 * r + j)

theorem byteAddress_eq_iff (hr : r < 16) (hj : j < 16) {a : UInt8} :
    byteAddress r j = a ↔ a.toNat / 16 = r ∧ a.toNat % 16 = j := by
  have hnat : (byteAddress r j).toNat = 16 * r + j :=
    UInt8.toNat_ofNat_of_lt' (show 16 * r + j < 256 by omega)
  rw [← UInt8.toNat_inj, hnat]
  omega

theorem byteAddress_zero_add (r j : Nat) : byteAddress r 0 + UInt8.ofNat j = byteAddress r j := by
  rw [byteAddress, Nat.add_zero, ← UInt8.ofNat_add]
  rfl

theorem dump_row (m : Memory) (hr : r < 16) :
    m.dump (UInt8.ofNat (r * rowBytes)) rowBytes =
      (List.range 16).map fun j => (byteAddress r j, m.read (byteAddress r j)) := by
  have hbase : (UInt8.ofNat (r * rowBytes)).toNat = r * 16 :=
    UInt8.toNat_ofNat_of_lt' (show r * 16 < 256 by omega)
  have hcount : min rowBytes (memorySize - r * 16) = 16 := by
    show min 16 (256 - r * 16) = 16
    omega
  have haddress (j : Nat) : UInt8.ofNat (r * rowBytes) + UInt8.ofNat j = byteAddress r j := by
    rw [← byteAddress_zero_add, Nat.mul_comm]
    rfl
  rw [Memory.dump, Memory.addresses, hbase, hcount, List.map_map]
  exact List.map_congr_left fun j _ => by simp only [Function.comp, haddress]

theorem memoryRow_eq (p : Processor) (hr : r < 16) :
    memoryRow p r =
      span (.of .darkGray) (Text.hex (byteAddress r 0) ++ ": ") ++
        (List.range 16).flatMap fun j =>
          span (cellStyle p.registers (byteAddress r j) (p.memory.read (byteAddress r j)))
            (Text.hex (p.memory.read (byteAddress r j)) ++ " ") := by
  rw [memoryRow, dump_row p.memory hr, List.flatMap_map, Nat.mul_comm]
  rfl

theorem chars_memoryRow (p : Processor) (hr : r < 16) :
    (memoryRow p r).map Cell.char =
      memoryText (byteAddress r 0) ((List.range 16).map fun j => p.memory.read (byteAddress r j)) := by
  simp only [memoryRow_eq p hr, memoryText, List.map_append, List.map_flatMap, chars_span,
    List.flatMap_map]

theorem styles_memoryRow (p : Processor) (hr : r < 16) :
    (memoryRow p r).map Cell.style =
      List.replicate 4 (.of .darkGray) ++
        blocks (fun j => cellStyle p.registers (byteAddress r j) (p.memory.read (byteAddress r j)))
          16 3 := by
  simp only [memoryRow_eq p hr, List.map_append, List.map_flatMap, styles_span, Text.toList_hex_append]
  rfl

theorem length_memoryRow (p : Processor) (hr : r < 16) : (memoryRow p r).length = 52 := by
  rw [← List.length_map (f := Cell.style), styles_memoryRow p hr, List.length_append, List.length_replicate,
    length_blocks]

/-- The columns of a row that is filled up: its address, its bytes by threes, and blanks. -/
theorem style_contentRow (p : Processor) (hr : r < 16) {room : Nat} (hroom : 52 ≤ room) {cell : Cell}
    (h : (fit room .plain (memoryRow p r))[x]? = some cell) :
    cell.style =
      if x < 4 then .of .darkGray
      else if x < 52 then
        cellStyle p.registers (byteAddress r ((x - 4) / 3)) (p.memory.read (byteAddress r ((x - 4) / 3)))
      else .plain := by
  have hlength := length_memoryRow p hr
  have hstyle : ((fit room .plain (memoryRow p r)).map Cell.style)[x]? = some cell.style := by
    rw [List.getElem?_map, h]
    rfl
  rw [fit_of_le _ (by omega), List.map_append, styles_memoryRow p hr, List.map_replicate,
    hlength] at hstyle
  have hx : x < room := by
    rw [List.getElem?_eq_some_iff] at h
    obtain ⟨hx, -⟩ := h
    rwa [length_fit] at hx
  -- Address, bytes and blanks are three lists in a row; each case goes past those before its own.
  rcases Nat.lt_or_ge x 4 with h4 | h4
  · rw [if_pos h4]
    rw [List.append_assoc, List.getElem?_append_left (by rwa [List.length_replicate]),
      List.getElem?_replicate_of_lt h4] at hstyle
    exact (Option.some.inj hstyle).symm
  · rw [if_neg (Nat.not_lt.mpr h4)]
    rw [List.append_assoc, List.getElem?_append_right (by rwa [List.length_replicate]),
      List.length_replicate] at hstyle
    rcases Nat.lt_or_ge x 52 with h52 | h52
    · rw [if_pos h52]
      rw [List.getElem?_append_left (by rw [length_blocks]; omega),
        getElem?_blocks _ _ _ (by omega)] at hstyle
      exact (Option.some.inj hstyle).symm
    · rw [if_neg (Nat.not_lt.mpr h52)]
      rw [List.getElem?_append_right (by rw [length_blocks]; omega), length_blocks,
        List.getElem?_replicate_of_lt (by omega)] at hstyle
      exact (Option.some.inj hstyle).symm

theorem chars_contentRow (p : Processor) (hr : r < 16) {room : Nat} (hroom : 52 ≤ room) :
    (fit room .plain (memoryRow p r)).map Cell.char =
      memoryText (byteAddress r 0) ((List.range 16).map fun j => p.memory.read (byteAddress r j)) ++
        List.replicate (room - 52) ' ' := by
  have hlength := length_memoryRow p hr
  rw [fit_of_le _ (by omega), List.map_append, chars_memoryRow p hr, List.map_replicate, hlength]

theorem readRow_contentRow (p : Processor) (hr : r < 16) {room : Nat} (hroom : 52 ≤ room) :
    readRow ((fit room .plain (memoryRow p r)).map Cell.char) =
      (List.range 16).map fun j => (byteAddress r j, p.memory.read (byteAddress r j)) := by
  rw [chars_contentRow p hr hroom, readRow_memoryText]
  apply List.ext_getElem
  · rw [List.length_mapIdx, List.length_map, List.length_map]
  · intro j hj hj'
    rw [List.getElem_mapIdx, List.getElem_map, List.getElem_map, List.getElem_range, byteAddress_zero_add]

theorem bright_contentRow (p : Processor) (hr : r < 16) {room : Nat} (hroom : 52 ≤ room) {cell : Cell}
    (h : (fit room .plain (memoryRow p r))[x]? = some cell) (c : Color) :
    cell.style = .bright c ↔
      (4 ≤ x ∧ x < 52) ∧ cellStyle p.registers (byteAddress r ((x - 4) / 3))
        (p.memory.read (byteAddress r ((x - 4) / 3))) = .bright c := by
  have hgray : Style.of .darkGray ≠ .bright c := by simp [Style.of, Style.bright]
  have hplain : Style.plain ≠ .bright c := by simp [Style.plain, Style.bright]
  rw [style_contentRow p hr hroom h]
  split
  · next h4 => exact ⟨fun hc => absurd hc hgray, fun ⟨hx, _⟩ => absurd hx.1 (by omega)⟩
  · next h4 =>
    split
    · next h52 => exact ⟨fun hc => ⟨⟨by omega, h52⟩, hc⟩, fun ⟨_, hc⟩ => hc⟩
    · next h52 => exact ⟨fun hc => absurd hc hplain, fun ⟨hx, _⟩ => absurd hx.2 h52⟩

/-- The columns that show the byte at an address: its digits and the blank behind them. -/
theorem byteAddress_column_iff (hr : r < 16) {a : UInt8} :
    (4 ≤ x ∧ x < 52) ∧ byteAddress r ((x - 4) / 3) = a ↔
      a.toNat / 16 = r ∧ 4 + 3 * (a.toNat % 16) ≤ x ∧ x < 7 + 3 * (a.toNat % 16) := by
  constructor
  · rintro ⟨⟨h4, h52⟩, haddress⟩
    have hplace := (byteAddress_eq_iff hr (by omega)).mp haddress
    omega
  · rintro ⟨hrow, hfrom, hto⟩
    have hplace : a.toNat % 16 < 16 := Nat.mod_lt _ (by decide)
    exact ⟨by omega, (byteAddress_eq_iff hr (by omega)).mpr ⟨hrow, by omega⟩⟩

end

theorem cellStyle_eq_yellow {f : RegisterFile} {a v : UInt8} :
    cellStyle f a v = .bright .yellow ↔ a = f.pc := by
  unfold cellStyle
  split_ifs <;> simp_all [Style.bright, Style.of]

theorem cellStyle_eq_green {f : RegisterFile} {a v : UInt8} :
    cellStyle f a v = .bright .green ↔ a = f.sp ∧ f.sp ≠ f.pc := by
  unfold cellStyle
  split_ifs <;> simp_all [Style.bright, Style.of]

/-! ## The panel in the view -/

section

variable {d : Debugger} {width height : Nat}

/-- The columns inside the memory panel. -/
def memoryWidth (width : Nat) : Nat := width - leftWidth width - 2

/-- The rows inside the memory panel that show memory. -/
def shownRows (d : Debugger) (height : Nat) : Nat := min (height - 14) (16 - d.scroll)

/-- The inside of the memory panel, cut out of the view. -/
def memoryContent (d : Debugger) (width height : Nat) : Picture :=
  crop (d.view width height) (leftWidth width + 1) 1 (memoryWidth width) (height - 14)

theorem length_leftColumn (d : Debugger) (width : Nat) (hheight : 22 ≤ height) :
    (d.leftColumn width height).length = height := by
  have hlength := (d.disassemblyPanel width (height - 11)).length_stacked d.registerPanel d.statusPanel width
    (show 2 ≤ height - 11 by omega) (show 2 ≤ 8 by omega) (show 2 ≤ 3 by omega)
  exact hlength.trans (by omega)

theorem length_rightColumn (d : Debugger) (width : Nat) (hheight : 22 ≤ height) :
    (d.rightColumn width height).length = height := by
  have hlength := (d.memoryPanel (height - 12)).length_stacked (d.printoutPanel 8) helpPanel width
    (show 2 ≤ height - 12 by omega) (show 2 ≤ 8 by omega) (show 2 ≤ 4 by omega)
  exact hlength.trans (by omega)

theorem length_of_mem_leftColumn (hwidth : 2 ≤ width) {row : Row} (h : row ∈ d.leftColumn width height) :
    row.length = width := by
  rcases List.mem_append.mp h with h | h
  · rcases List.mem_append.mp h with h | h
    · exact Panel.length_of_mem_draw hwidth h
    · exact Panel.length_of_mem_draw hwidth h
  · exact Panel.length_of_mem_draw hwidth h

theorem memoryContent_eq (d : Debugger) (hheight : 22 ≤ height) (hwidth : 52 ≤ memoryWidth width) :
    d.memoryContent width height =
      (List.range (d.shownRows height)).map
          (fun k => fit (memoryWidth width) .plain (memoryRow d.processor (d.scroll + k))) ++
        List.replicate (height - 14 - d.shownRows height)
          (List.replicate (memoryWidth width) ⟨' ', .plain⟩) := by
  have hleft : 2 ≤ leftWidth width := by
    unfold memoryWidth leftWidth at *
    omega
  have hright : 2 ≤ width - leftWidth width := by
    unfold memoryWidth at hwidth
    omega
  have hrows : height - 14 = height - 12 - 2 := by omega
  have hcontent : (d.memoryPanel (height - 12)).rows =
      (List.range (d.shownRows height)).map fun k => memoryRow d.processor (d.scroll + k) := by
    rw [shownRows, hrows]
    exact List.map_map ..
  have hpanel :=
    (d.memoryPanel (height - 12)).length_draw (width - leftWidth width) (height - 12) (by omega)
  -- From the view to its right column, from there to its topmost panel, and to the inside of that.
  rw [memoryContent, view,
    crop_beside (fun row => length_of_mem_leftColumn hleft)
      ((d.length_leftColumn _ hheight).trans (d.length_rightColumn _ hheight).symm),
    rightColumn, crop_append (by rw [List.length_append, hpanel]; omega), crop_append (by rw [hpanel]; omega),
    hrows, memoryWidth, Panel.crop_draw _ hright, hcontent, List.length_map, List.length_range,
    List.take_of_length_le (by rw [List.length_map, List.length_range, ← hrows]; exact Nat.min_le_left _ _),
    List.map_append, List.map_map, List.map_replicate, fit_nil]
  rfl

theorem length_memoryContent (d : Debugger) (hheight : 22 ≤ height) (hwidth : 52 ≤ memoryWidth width) :
    (d.memoryContent width height).length = height - 14 := by
  have hshown : d.shownRows height ≤ height - 14 := Nat.min_le_left _ _
  rw [d.memoryContent_eq hheight hwidth, List.length_append, List.length_map, List.length_range,
    List.length_replicate]
  omega

/-- A row inside the panel shows a row of memory or is blank. -/
theorem contentRow_cases (hheight : 22 ≤ height) (hwidth : 52 ≤ memoryWidth width) {k : Nat} {row : Row}
    (h : (d.memoryContent width height)[k]? = some row) :
    k < d.shownRows height ∧ row = fit (memoryWidth width) .plain (memoryRow d.processor (d.scroll + k)) ∨
      d.shownRows height ≤ k ∧ row = List.replicate (memoryWidth width) ⟨' ', .plain⟩ := by
  rw [d.memoryContent_eq hheight hwidth] at h
  rcases Nat.lt_or_ge k (d.shownRows height) with hk | hk
  · rw [List.getElem?_append_left (by rwa [List.length_map, List.length_range]), List.getElem?_map,
      List.getElem?_range hk] at h
    exact .inl ⟨hk, (Option.some.inj h).symm⟩
  · rw [List.getElem?_append_right (by rwa [List.length_map, List.length_range])] at h
    exact .inr ⟨hk, List.eq_of_mem_replicate (List.mem_of_getElem? h)⟩

theorem row_lt_of_shown {k : Nat} (h : k < d.shownRows height) : d.scroll + k < 16 := by
  unfold shownRows at h
  omega

/-- The rows in view, read one after the other. -/
theorem flatMap_rows {α : Type} (g : Nat → α) (count : Nat) :
    ((List.range count).flatMap fun k => (List.range 16).map fun j => g (16 * k + j)) =
      (List.range (16 * count)).map g := by
  induction count with
  | zero => rfl
  | succ count ih =>
    rw [List.range_succ (n := count), List.flatMap_append, ih, List.flatMap_singleton, Nat.mul_succ,
      List.range_add, List.map_append, List.map_map]
    rfl

/-- The cells from the first row in view on, with their addresses. -/
def cellFrom (d : Debugger) (i : Nat) : UInt8 × UInt8 :=
  (byteAddress d.scroll i, d.processor.memory.read (byteAddress d.scroll i))

theorem read_memoryContent (d : Debugger) (hheight : 22 ≤ height) (hwidth : 52 ≤ memoryWidth width) :
    (d.memoryContent width height).flatMap (fun row => readRow (row.map Cell.char)) =
      (List.range (16 * d.shownRows height)).map d.cellFrom := by
  have hrow : ∀ k ∈ List.range (d.shownRows height),
      readRow ((fit (memoryWidth width) .plain (memoryRow d.processor (d.scroll + k))).map Cell.char) =
        (List.range 16).map fun j => d.cellFrom (16 * k + j) := by
    intro k hk
    rw [readRow_contentRow d.processor (row_lt_of_shown (List.mem_range.mp hk)) hwidth]
    simp only [cellFrom, byteAddress, Nat.mul_add, Nat.add_assoc]
  have hblank : ∀ row ∈ List.replicate (height - 14 - d.shownRows height)
      (List.replicate (memoryWidth width) (⟨' ', .plain⟩ : Cell)), readRow (row.map Cell.char) = [] := by
    intro row h
    rw [List.eq_of_mem_replicate h, List.map_replicate, readRow_blank]
  rw [d.memoryContent_eq hheight hwidth, List.flatMap_append, List.flatMap_map,
    List.flatMap_congr hrow, flatMap_rows, List.flatMap_eq_nil_iff.mpr hblank, List.append_nil]

/-- A row and a column inside the panel belong to the cell at an address: to the digits of its byte or to the
blank behind them. -/
structure ShowsAt (d : Debugger) (height k x : Nat) (a : UInt8) : Prop where
  shown : k < d.shownRows height
  row : a.toNat / 16 = d.scroll + k
  column : 4 + 3 * (a.toNat % 16) ≤ x ∧ x < 7 + 3 * (a.toNat % 16)

/-- A bright color that `cellStyle` gives to one address alone stands in the panel where that address is
shown. -/
theorem bright_iff_showsAt (hheight : 22 ≤ height) (hwidth : 52 ≤ memoryWidth width) {k x : Nat} {row : Row}
    {cell : Cell} (hrow : (d.memoryContent width height)[k]? = some row) (hcell : row[x]? = some cell)
    {c : Color} {marked : UInt8} {asked : Prop}
    (hstyle : ∀ a v, cellStyle d.processor.registers a v = .bright c ↔ a = marked ∧ asked) :
    cell.style = .bright c ↔ d.ShowsAt height k x marked ∧ asked := by
  rcases contentRow_cases hheight hwidth hrow with ⟨hk, rfl⟩ | ⟨hk, rfl⟩
  · have hr := row_lt_of_shown hk
    rw [bright_contentRow d.processor hr hwidth hcell, hstyle, ← and_assoc, byteAddress_column_iff hr]
    exact and_congr_left fun _ => ⟨fun ⟨hrow, hcolumn⟩ => ⟨hk, hrow, hcolumn⟩, fun h => ⟨h.row, h.column⟩⟩
  · rw [List.eq_of_mem_replicate (List.mem_of_getElem? hcell)]
    constructor
    · intro h
      cases h
    · rintro ⟨h, -⟩
      exact absurd h.shown (Nat.not_lt.mpr hk)

end

/-! ## Scrolling -/

theorem scroll_stepAt (d : Debugger) (now : Instant) : (d.stepAt now).scroll = d.scroll := by
  unfold stepAt
  split
  · dsimp only
    split <;> rfl
  · rfl

theorem scroll_tickAt (d : Debugger) (now : Instant) : (d.tickAt now).scroll = d.scroll := by
  unfold tickAt
  split
  · split
    · rw [← d.scroll_stepAt now, checkBreakpoint]
      split <;> rfl
    · rfl
  · rfl

theorem scroll_perform_le {d : Debugger} (h : d.scroll ≤ 15) (o : Operation) : (d.perform o).scroll ≤ 15 := by
  cases o with
  | step now => rwa [perform, scroll_stepAt]
  | tick now => rwa [perform, scroll_tickAt]
  | scroll rows => exact Nat.min_le_right _ _
  | run | toggleBreakpoint | press | setInputMode | raise | setRegister | setFlags | setPc | write | reset =>
    exact h

/-- The view begins at a row of memory, whatever was done before. -/
theorem scroll_performAll_le {d : Debugger} (h : d.scroll ≤ 15) (operations : List Operation) :
    (d.performAll operations).scroll ≤ 15 := by
  induction operations generalizing d with
  | nil => exact h
  | cons o rest ih => exact ih (scroll_perform_le h o)

/-- The memory panel can be read back. Whatever was done to a debugger, its view begins at one of the sixteen
rows of memory, and on every terminal with room for a row the panel shows the rows from there on, as many as
there are and fit: each reads as its address and its sixteen bytes. What is left of the panel is blank, so that
reading it gives the bytes in view with their addresses and nothing else. The cell at the program counter, if
it is in view, is bright yellow and no other one is, and the cell at the stack pointer, if it is in view and
not the same, is bright green and no other one is. -/
theorem memory_read_back (image : List UInt8) (c : Configuration) (operations : List Operation)
    {width height : Nat} (hheight : 22 ≤ height) (hwidth : 52 ≤ memoryWidth width) :
    let d := (ofImage image c).performAll operations
    let p := d.processor
    let shown := min (height - 14) (16 - d.scroll)
    let content := d.memoryContent width height
    d.scroll ≤ 15 ∧ content.length = height - 14 ∧
      (∀ k row, content[k]? = some row →
        (k < shown →
          row.map Cell.char =
            memoryText (byteAddress (d.scroll + k) 0)
                ((List.range 16).map fun j => p.memory.read (byteAddress (d.scroll + k) j)) ++
              List.replicate (memoryWidth width - 52) ' ') ∧
        (shown ≤ k → row = List.replicate (memoryWidth width) ⟨' ', .plain⟩)) ∧
      content.flatMap (fun row => readRow (row.map Cell.char)) =
        (List.range (16 * shown)).map d.cellFrom ∧
      ∀ k row x cell, content[k]? = some row → row[x]? = some cell →
        (cell.style = .bright .yellow ↔ d.ShowsAt height k x p.pc) ∧
        (cell.style = .bright .green ↔ d.ShowsAt height k x p.sp ∧ p.sp ≠ p.pc) := by
  intro d p shown content
  refine ⟨scroll_performAll_le (Nat.zero_le 15) operations, d.length_memoryContent hheight hwidth, ?_,
    d.read_memoryContent hheight hwidth, ?_⟩
  · intro k row hrow
    rcases contentRow_cases hheight hwidth hrow with ⟨hk, rfl⟩ | ⟨hk, rfl⟩
    · exact ⟨fun _ => chars_contentRow p (row_lt_of_shown hk) hwidth, fun h => absurd hk (Nat.not_lt.mpr h)⟩
    · exact ⟨fun h => absurd h (Nat.not_lt.mpr hk), fun _ => rfl⟩
  · intro k row x cell hrow hcell
    constructor
    · have hpc (a v : UInt8) : cellStyle p.registers a v = .bright .yellow ↔ a = p.pc ∧ True :=
        cellStyle_eq_yellow.trans (and_iff_left trivial).symm
      rw [bright_iff_showsAt hheight hwidth hrow hcell hpc, and_true]
    · exact bright_iff_showsAt hheight hwidth hrow hcell fun a v => cellStyle_eq_green

/-- A debugger that was scrolled up from the first row, and down far past the last one. -/
def scrolled : Debugger := (ofImage [0x82, 0, 8] .default).performAll [.scroll (-4), .press 65, .scroll 300]

/-- One row is left in view, with the key's cell in it. -/
theorem scrolled_read_back :
    22 ≤ 22 ∧ 52 ≤ memoryWidth 100 ∧ scrolled.scroll = 15 ∧
      (scrolled.memoryContent 100 22).flatMap (fun row => readRow (row.map Cell.char)) =
        (List.range 16).map scrolled.cellFrom ∧
      scrolled.cellFrom 4 = (keyAddress, 65) := by
  have hscroll : scrolled.scroll = 15 := by decide +kernel
  have hwidth : 52 ≤ memoryWidth 100 := by decide
  obtain ⟨-, -, -, hread, -⟩ :=
    memory_read_back [0x82, 0, 8] .default [.scroll (-4), .press 65, .scroll 300] (Nat.le_refl 22) hwidth
  change _ = (List.range (16 * min (22 - 14) (16 - scrolled.scroll))).map scrolled.cellFrom at hread
  rw [hscroll] at hread
  exact ⟨Nat.le_refl 22, hwidth, hscroll, hread, by decide +kernel⟩

end Debugger

end Microcomputer
