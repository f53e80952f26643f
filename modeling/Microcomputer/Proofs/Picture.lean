import Microcomputer.Screen.Panel

/-!
Rectangles of a picture.

`crop` reads a rectangle out of a picture. What is drawn below or to the left of it does not count
(`crop_append`, `crop_beside`). The inside of a panel shows its rows, cut at the bottom, and each of them filled
up to the width: `crop_draw`.
-/

namespace Microcomputer.Screen

/-- The cells in a rectangle. -/
def crop (p : Picture) (x y width height : Nat) : Picture :=
  ((p.drop y).take height).map fun row => (row.drop x).take width

@[simp] theorem chars_span (style : Style) (s : String) : (span style s).map Cell.char = s.toList := by
  rw [span, List.map_map]
  exact List.map_id _

@[simp] theorem styles_span (style : Style) (s : String) :
    (span style s).map Cell.style = List.replicate s.toList.length style := by
  rw [span, List.map_map]
  exact List.map_const' ..

theorem length_edge (style : Style) (left right : Char) (inside : Row) :
    (Panel.edge style left right inside).length = inside.length + 2 := by
  simp [Panel.edge]

theorem fit_of_le {width : Nat} {row : Row} (style : Style) (h : row.length ≤ width) :
    fit width style row = row ++ List.replicate (width - row.length) ⟨' ', style⟩ := by
  rw [fit, List.take_of_length_le h]

theorem fit_nil (width : Nat) (style : Style) : fit width style [] = List.replicate width ⟨' ', style⟩ :=
  fit_of_le style (Nat.zero_le width)

section

variable {upper lower left right : Picture} {x y width height column : Nat}

theorem crop_append (h : y + height ≤ upper.length) :
    crop (upper ++ lower) x y width height = crop upper x y width height := by
  unfold crop
  rw [List.drop_append_of_le_length (by omega),
    List.take_append_of_le_length (by rw [List.length_drop]; omega)]

/-- A picture beside one of the same height, whose rows all end at one column. -/
theorem map_drop_beside (hcolumn : ∀ row ∈ left, row.length = column)
    (hlength : left.length = right.length) :
    (beside left right).map (List.drop (column + x)) = right.map (List.drop x) := by
  induction left generalizing right with
  | nil =>
    rw [List.length_eq_zero_iff.mp hlength.symm]
    rfl
  | cons l left ih =>
    cases right with
    | nil => cases hlength
    | cons r right =>
      have hrow : (l ++ r).drop (column + x) = r.drop x := by
        rw [← hcolumn l List.mem_cons_self, List.drop_length_add_append]
      have hrest := ih (fun row h => hcolumn row (List.mem_cons_of_mem l h)) (Nat.succ.inj hlength)
      rw [beside, List.zipWith_cons_cons, List.map_cons, List.map_cons, hrow, ← hrest]
      rfl

theorem crop_beside (hcolumn : ∀ row ∈ left, row.length = column)
    (hlength : left.length = right.length) :
    crop (beside left right) (column + x) y width height = crop right x y width height := by
  have hrows (p : Picture) (x : Nat) :
      crop p x y width height = (((p.map (List.drop x)).drop y).take height).map (List.take width) := by
    rw [← List.map_drop, ← List.map_take, List.map_map]
    rfl
  rw [hrows, map_drop_beside hcolumn hlength, ← hrows]

end

namespace Panel

variable {width height : Nat}

theorem length_top (p : Panel) (width : Nat) : (p.top width).length = width + 2 := by
  simp only [top, length_edge, List.length_append, List.length_take, line, List.length_replicate]
  omega

theorem length_bottom (p : Panel) (width : Nat) : (p.bottom width).length = width + 2 := by
  rw [bottom, length_edge, line, List.length_replicate]

theorem length_of_mem_inside {p : Panel} {row : Row} (h : row ∈ p.inside width height) :
    row.length = width + 2 := by
  obtain ⟨content, -, rfl⟩ := List.mem_map.mp h
  rw [length_edge, length_fit]

/-- The panel around an inside of the given size. -/
def box (p : Panel) (width height : Nat) : Picture := p.top width :: p.inside width height ++ [p.bottom width]

theorem length_of_mem_box {p : Panel} {row : Row} (h : row ∈ p.box width height) :
    row.length = width + 2 := by
  rcases List.mem_append.mp h with h | h
  · rcases List.mem_cons.mp h with rfl | h
    · exact p.length_top width
    · exact length_of_mem_inside h
  · rw [List.mem_singleton.mp h]
    exact p.length_bottom width

/-- With room for both sides nothing is cut off the box. -/
theorem draw_eq (p : Panel) (hwidth : 2 ≤ width) : p.draw width height = p.box (width - 2) (height - 2) := by
  have hall : ∀ row ∈ p.box (width - 2) (height - 2), row.take width = row := by
    intro row h
    have hlength := length_of_mem_box h
    exact List.take_of_length_le (by omega)
  exact (List.map_congr_left hall).trans (List.map_id _)

theorem length_of_mem_draw {p : Panel} {row : Row} (hwidth : 2 ≤ width) (h : row ∈ p.draw width height) :
    row.length = width := by
  rw [p.draw_eq hwidth] at h
  have hlength := length_of_mem_box h
  omega

theorem length_inside (p : Panel) (width height : Nat) : (p.inside width height).length = height := by
  simp only [inside, List.length_map, List.length_append, List.length_take, List.length_replicate]
  omega

theorem crop_box (p : Panel) (width height : Nat) :
    crop (p.box width height) 1 1 width height =
      (p.rows.take height ++ List.replicate (height - p.rows.length) []).map (fit width p.fill) := by
  have hrow (content : Row) :
      ((edge p.border '│' '│' (fit width p.fill content)).drop 1).take width = fit width p.fill content :=
    List.take_left' (length_fit width p.fill content)
  have hinside : ((p.box width height).drop 1).take height = p.inside width height :=
    List.take_left' (p.length_inside width height)
  rw [crop, hinside, inside, List.map_map]
  exact List.map_congr_left fun content _ => hrow content

theorem crop_draw (p : Panel) (hwidth : 2 ≤ width) :
    crop (p.draw width height) 1 1 (width - 2) (height - 2) =
      (p.rows.take (height - 2) ++ List.replicate (height - 2 - p.rows.length) []).map
        (fit (width - 2) p.fill) := by
  rw [p.draw_eq hwidth, crop_box]

/-- Three panels, one above the other. -/
theorem length_stacked (p q r : Panel) (width : Nat) {a b c : Nat} (ha : 2 ≤ a) (hb : 2 ≤ b) (hc : 2 ≤ c) :
    (p.draw width a ++ q.draw width b ++ r.draw width c).length = a + b + c := by
  rw [List.length_append, List.length_append, p.length_draw width a ha, q.length_draw width b hb,
    r.length_draw width c hc]

end Panel

end Microcomputer.Screen
