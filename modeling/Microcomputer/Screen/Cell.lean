/-!
Cells of a screen. A picture is a list of rows and a row a list of cells, each a character with a style.
-/

namespace Microcomputer.Screen

inductive Color
  | cyan | magenta | darkGray | white | green | blue | yellow | gray | red
  deriving DecidableEq, Repr

def Color.name : Color → String
  | .cyan => "Cyan"
  | .magenta => "Magenta"
  | .darkGray => "DarkGray"
  | .white => "White"
  | .green => "Green"
  | .blue => "Blue"
  | .yellow => "Yellow"
  | .gray => "Gray"
  | .red => "Red"

/-- The look of a cell; without a color it has the terminal's. -/
structure Style where
  color : Option Color
  bold : Bool
  deriving DecidableEq, Repr

namespace Style

def plain : Style := ⟨none, false⟩
def of (c : Color) : Style := ⟨some c, false⟩
def bright (c : Color) : Style := ⟨some c, true⟩

end Style

structure Cell where
  char : Char
  style : Style
  deriving DecidableEq, Repr

abbrev Row := List Cell
abbrev Picture := List Row

/-- A text in one style, a cell for each character. -/
def span (style : Style) (s : String) : Row := s.toList.map fun c => ⟨c, style⟩

/-- The row cut or filled up to a width. -/
def fit (width : Nat) (style : Style) (row : Row) : Row :=
  row.take width ++ List.replicate (width - row.length) ⟨' ', style⟩

theorem length_fit (width : Nat) (style : Style) (row : Row) :
    (fit width style row).length = width := by
  simp only [fit, List.length_append, List.length_take, List.length_replicate]
  omega

namespace Row

/-- The characters of a row without the blanks at its end. -/
def text (row : Row) : String :=
  String.ofList ((row.map Cell.char).reverse.dropWhile (· = ' ')).reverse

/-- Where a run of cells of one style begins, how long it is, and the style. -/
structure Run where
  start : Nat
  length : Nat
  style : Style
  deriving DecidableEq, Repr

/-- Puts a cell before the runs of the cells after it. -/
def Run.cons (x : Nat) (style : Style) : List Run → List Run
  | [] => [⟨x, 1, style⟩]
  | run :: rest =>
    if run.style = style then ⟨x, run.length + 1, style⟩ :: rest else ⟨x, 1, style⟩ :: run :: rest

def runsFrom (x : Nat) : Row → List Run
  | [] => []
  | cell :: rest => Run.cons x cell.style (runsFrom (x + 1) rest)

/-- The maximal runs of cells of one style, without those in the terminal's own style. -/
def runs (row : Row) : List Run := (row.runsFrom 0).filter fun run => run.style ≠ .plain

end Row

end Microcomputer.Screen
