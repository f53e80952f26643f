import Microcomputer.Debugger.Basic
import Microcomputer.Debugger.Window
import Microcomputer.Screen.Panel
import Microcomputer.Text.Lines

/-!
The debugger's view. The left column holds the disassembly, the registers and the status, the right column
memory, the tail of what was printed, and a reminder of the keys. The disassembly and memory panels take
the height that the others leave.
-/

namespace Microcomputer

namespace Debugger

open Screen

/-! ## Disassembly -/

def disassemblyRow (d : Debugger) (width : Nat) (line : WindowLine) : Row :=
  let marked := d.breakpoints.contains line.address
  let style :=
    if line.isCurrent then Style.bright .yellow
    else if marked then Style.of .red
    else Style.plain
  let mark := if marked then "●" else " "
  let pointer := if line.isCurrent then "▶ " else "  "
  fit width style (span style (mark ++ " " ++ pointer ++ Text.hex line.address ++ ": " ++ line.text))

def disassemblyPanel (d : Debugger) (width height : Nat) : Panel where
  title := " Disassembly "
  border := .of .cyan
  fill := .plain
  rows := (d.processor.memory.disassemblyWindow d.processor.pc (height - 2)).map
    (d.disassemblyRow (width - 2))

/-! ## Registers -/

/-- A register's name with its use, where it has one. -/
def registerLabel (r : Register) : String :=
  let use :=
    if r = .interruptMask then "/IM " else if r = .stackPointer then "/SP " else " "
  "R" ++ toString r.val ++ use

def registerRow (f : RegisterFile) (names : List Register) : Row :=
  names.flatMap fun r =>
    span .plain (registerLabel r) ++
      span (.of .white) (Text.hex (f.get r) ++ "(" ++
        Text.padLeft 4 (toString (Text.signed (f.get r))) ++ ")  ")

def counterRow (f : RegisterFile) : Row :=
  span .plain "PC: " ++ span (.of .yellow) (Text.hex f.pc) ++ span .plain "   IR: " ++
    span (.of .white) (Text.hex f.ir) ++ span .plain ("   " ++ f.flags.text)

def phaseColor : InterruptPhase → Color
  | .idle => .gray
  | .pending => .yellow
  | .servicing => .magenta

def interruptRow (p : Processor) : Row :=
  let style := Style.of (phaseColor p.interrupts.phase)
  span .plain "IS: " ++ span style (Text.binary p.interrupts.status) ++ span .plain "   IM: " ++
    span (.of .white) (Text.binary p.registers.mask) ++ span .plain "   " ++
    span style p.interrupts.phase.name

def cycleRow (p : Processor) : Row :=
  span .plain "Cycles: " ++ span (.of .cyan) (toString p.cycles.toNat) ++ span .plain "   State: " ++
    span (.of (if p.isRunning then .green else .red)) p.state.name

def registerPanel (d : Debugger) : Panel where
  title := " Registers "
  border := .of .green
  fill := .plain
  rows :=
    [registerRow d.processor.registers (Register.all.take 4),
      registerRow d.processor.registers (Register.all.drop 4),
      counterRow d.processor.registers, interruptRow d.processor, cycleRow d.processor]

/-! ## Memory -/

/-- The look of a cell of memory. The program counter shows before the stack pointer, both before the
cells that devices use, and those before the rest. -/
def cellStyle (f : RegisterFile) (a v : UInt8) : Style :=
  if a = f.pc then .bright .yellow
  else if a = f.sp then .bright .green
  else if vectorBase ≤ a ∨ a = keyAddress then .of .magenta
  else if v ≠ 0 then .of .white
  else .of .darkGray

def memoryRow (p : Processor) (row : Nat) : Row :=
  let base := UInt8.ofNat (row * rowBytes)
  span (.of .darkGray) (Text.hex base ++ ": ") ++
    (p.memory.dump base rowBytes).flatMap fun (a, v) =>
      span (cellStyle p.registers a v) (Text.hex v ++ " ")

/-- The rows of memory in view. -/
def visibleRows (d : Debugger) (height : Nat) : List Nat :=
  (List.range (min (height - 2) (memorySize / rowBytes - d.scroll))).map (d.scroll + ·)

def memoryPanel (d : Debugger) (height : Nat) : Panel where
  title := " Memory "
  border := .of .magenta
  fill := .plain
  rows := (d.visibleRows height).map (memoryRow d.processor)

/-! ## Printout, status and keys -/

/-- A character that takes no cell. -/
def softHyphen : Char := '\u00ad'

/-- An emission as it stands in its row, without ends of lines and soft hyphens. -/
def emissionText (s : String) : String :=
  String.ofList ((Text.lines s.toList).flatten.filter (· ≠ softHyphen))

def printoutPanel (d : Debugger) (height : Nat) : Panel where
  title := " Output "
  border := .of .blue
  fill := .plain
  rows :=
    let lines := d.printed.lines
    (lines.drop (lines.length - (height - 2))).map fun line => span .plain (emissionText line)

def statusPanel (d : Debugger) : Panel :=
  let style := Style.of (if d.inputMode then .yellow else .white)
  ⟨" Status ", style, style, [span style d.status.text]⟩

def helpPanel : Panel :=
  let style := Style.of .darkGray
  ⟨" Help ", style, style,
    [span style "s: Step  r: Run  p: Pause  b: Breakpoint  i: Type keys",
      span style "x: Reset  ↑↓: Scroll memory  q: Quit"]⟩

/-! ## The whole view -/

/-- Forty-five hundredths of the width, rounded to the nearest column, a half upwards. -/
def leftWidth (width : Nat) : Nat := (90 * width + 100) / 200

def leftColumn (d : Debugger) (width height : Nat) : Picture :=
  (d.disassemblyPanel width (height - 11)).draw width (height - 11) ++
    d.registerPanel.draw width 8 ++ d.statusPanel.draw width 3

def rightColumn (d : Debugger) (width height : Nat) : Picture :=
  (d.memoryPanel (height - 12)).draw width (height - 12) ++
    (d.printoutPanel 8).draw width 8 ++ helpPanel.draw width 4

/-- The view on a terminal of the given size, at least twenty-two rows high. -/
def view (d : Debugger) (width height : Nat) : Picture :=
  let left := leftWidth width
  beside (d.leftColumn left height) (d.rightColumn (width - left) height)

end Debugger

end Microcomputer
