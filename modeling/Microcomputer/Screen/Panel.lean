import Microcomputer.Screen.Cell

/-!
Panels: boxes with a title on the upper border and rows inside. Content is cut at the right and at the
bottom. Panels of one width stack; stacks of one height stand side by side.
-/

namespace Microcomputer.Screen

structure Panel where
  title : String
  /-- The look of border and title. -/
  border : Style
  /-- The look of inner cells without content. -/
  fill : Style
  rows : List Row

namespace Panel

def edge (style : Style) (left right : Char) (inside : Row) : Row :=
  ⟨left, style⟩ :: inside ++ [⟨right, style⟩]

def line (style : Style) (width : Nat) : Row := List.replicate width ⟨'─', style⟩

/-- The upper border: the title, and a line for the rest of it. -/
def top (p : Panel) (width : Nat) : Row :=
  let title := (span p.border p.title).take width
  edge p.border '┌' '┐' (title ++ line p.border (width - title.length))

def bottom (p : Panel) (width : Nat) : Row := edge p.border '└' '┘' (line p.border width)

/-- The rows inside: as many as there is room for, the rest of the room blank. -/
def inside (p : Panel) (width height : Nat) : List Row :=
  let rows := p.rows.take height ++ List.replicate (height - p.rows.length) []
  rows.map fun row => edge p.border '│' '│' (fit width p.fill row)

/-- The panel in a box of the given size, borders included. Of a box without room for both sides the
left one stays. -/
def draw (p : Panel) (width height : Nat) : Picture :=
  (p.top (width - 2) :: p.inside (width - 2) (height - 2) ++ [p.bottom (width - 2)]).map
    fun row => row.take width

theorem length_draw (p : Panel) (width height : Nat) (h : 2 ≤ height) :
    (p.draw width height).length = height := by
  simp only [draw, inside, List.cons_append, List.length_cons, List.length_append, List.length_map,
    List.length_take, List.length_replicate, List.length_nil]
  omega

end Panel

/-- Two pictures side by side. -/
def beside (left right : Picture) : Picture := List.zipWith (· ++ ·) left right

end Microcomputer.Screen
