import Microcomputer.Machine

/-!
A machine on a console. What it prints is written to the standard output as it comes, a line for each
emission, and the machine keeps none of it. If its configuration asks for traces, an entry goes to the error
output ahead of each instruction.

The console writes numbers, characters and texts by itself. That its lines are those of a printout is
`stdout_emit`.
-/

namespace Microcomputer.CommandLine

def unlines (lines : List String) : String := String.join (lines.map (· ++ "\n"))

structure Console where
  machine : Machine
  stdout : String
  stderr : String

namespace Console

def ofMachine (machine : Machine) : Console := ⟨machine, "", ""⟩

/-- Writes a line to the standard output. -/
def writeLine (c : Console) (line : String) : Console := { c with stdout := c.stdout ++ line ++ "\n" }

/-- A number in decimal, after a minus sign if it is negative. -/
def writeNumber (c : Console) (value : Int) : Console :=
  c.writeLine (if value < 0 then "-" ++ toString value.natAbs else toString value.natAbs)

def writeChar (c : Console) (char : Char) : Console := c.writeLine (String.ofList [char])

def writeText (c : Console) (text : String) : Console := c.writeLine text

/-- Writes an emission. -/
def emit (c : Console) : Printed → Console
  | .number value => c.writeNumber value
  | .char char => c.writeChar char
  | .text text => c.writeText text

/-- Writes what the machine has just printed. -/
def write (c : Console) : Console :=
  c.machine.printed.foldl emit { c with machine := { c.machine with printed := #[] } }

/-- Shows what comes next, if traces are asked for. -/
def trace (c : Console) : Console :=
  if c.machine.configuration.trace then
    { c with stderr := c.stderr ++ unlines [c.machine.processor.traceEntry] }
  else c

/-- One turn of a run: a trace entry and a step, after which the run goes on or has ended. It ends, too, when
the processor has stopped or the count of instructions has come to the limit. -/
def turn (limit : Option UInt64) (c : Console) : Console ⊕ (Console × Except Fault Unit) :=
  if c.machine.processor.state = .running ∧ c.machine.processor.isBelow limit then
    let traced := c.trace
    match c.machine.step with
    | (machine, .ok _) => .inl { traced with machine }.write
    | (machine, .error f) => .inr ({ traced with machine }.write, .error f)
  else .inr (c, .ok ())

/-- Turn after turn until the run ends. -/
def runWhile (limit : Option UInt64) (c : Console) : Console × Except Fault Unit :=
  have : Nonempty (Console × Except Fault Unit) := ⟨c, .ok ()⟩
  Id.run (repeatM (turn limit) c)

theorem runWhile_eq (limit : Option UInt64) (c : Console) :
    runWhile limit c =
      match c.turn limit with
      | .inl next => runWhile limit next
      | .inr ended => ended := by
  have : Nonempty (Console × Except Fault Unit) := ⟨c, .ok ()⟩
  rw [runWhile, repeatM_eq_of_monadTail, repeatM.body]
  cases c.turn limit <;> rfl

/-- Runs to a halt, a fault or the configured limit, unless the limit does not fit. -/
def run? (c : Console) : Option (Console × Except Fault RunSummary) :=
  c.machine.limit?.map fun limit =>
    let (last, result) := runWhile limit c
    (last, result.map fun _ => last.machine.summary c.machine.processor.cycles)

/-- What the console writes of an emission is its line in a printout. -/
theorem stdout_emit (c : Console) (p : Printed) :
    c.emit p = { c with stdout := c.stdout ++ p.line ++ "\n" } := by
  cases p with
  | number value =>
    show c.writeLine _ = c.writeLine _
    congr 1
    cases value with
    | ofNat n => rfl
    | negSucc n => exact if_pos (Int.negSucc_lt_zero n)
  | char char => rfl
  | text text => rfl

end Console

end Microcomputer.CommandLine
