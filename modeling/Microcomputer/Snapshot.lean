import Microcomputer.Json.Writer
import Microcomputer.Processor.Basic

/-!
The processor's state as JSON. Every field of the processor is written, and reading takes members in any
order, passes over other members, and counts an absent fault or last instruction as none.

A state may list any number of memory cells, more than there are addresses or fewer, and it is kept as it was
read: `SavedProcessor`. Where an address has no cell, reading or writing there aborts the program; as long as
only the other addresses are used, the state runs like the processor that it makes up with zeros in the cells
it lacks (`padded`).
-/

namespace Microcomputer

/-- A processor whose memory stands apart, as a list of cells of any length. -/
structure SavedProcessor where
  processor : Processor
  cells : List UInt8
  apart : processor.memory = .zero
  deriving DecidableEq, Repr

namespace SavedProcessor

/-- The processor with these cells for its memory. -/
def withCells (p : Processor) (cells : List UInt8) : SavedProcessor := ⟨{ p with memory := .zero }, cells, rfl⟩

def ofProcessor (p : Processor) : SavedProcessor := .withCells p p.memory.toList

/-- The processor with a zero in each cell that is missing. -/
def padded (s : SavedProcessor) : Processor := { s.processor with memory := .ofCells s.cells }

end SavedProcessor

namespace Snapshot

open Json (natural name record)

/-! ## Writing -/

def byte (b : UInt8) : Json := natural b.toNat

def variant (key : String) (content : List (String × Json)) : Json := record [(key, record content)]

def registers (r : RegisterFile) : Json :=
  record [("gpr", .array (r.bank.toList.map byte)), ("pc", byte r.pc), ("ir", byte r.ir),
    ("fl", byte r.flags.bits)]

def cells (cells : List UInt8) : Json := record [("cells", .array (cells.map byte))]

def memory (m : Memory) : Json := cells m.toList

def interrupts (c : InterruptController) : Json :=
  record [("status", byte c.status), ("servicing", .bool c.servicing)]

def runState (s : RunState) : Json := name s.name

def fault : Fault → Json
  | .notRunning s => record [("NotRunning", runState s)]
  | .invalidOpcode a op => variant "InvalidOpcode" [("address", byte a), ("opcode", byte op)]
  | .invalidRegister a r => variant "InvalidRegister" [("address", byte a), ("operand", byte r)]
  | .divisionByZero a => variant "DivisionByZero" [("address", byte a)]
  | .stackOverflow sp => variant "StackOverflow" [("sp", byte sp)]
  | .stackUnderflow sp => variant "StackUnderflow" [("sp", byte sp)]

def aluOpName : AluOp → String
  | .add => "Add"
  | .sub => "Sub"
  | .mul => "Mul"
  | .div => "Div"
  | .mod => "Mod"
  | .inc => "Inc"
  | .dec => "Dec"
  | .and => "And"
  | .or => "Or"
  | .xor => "Xor"
  | .not => "Not"
  | .shl => "Shl"
  | .shr => "Shr"
  | .cmp => "Cmp"

def conditionName : Condition → String
  | .always => "Always"
  | .equal => "Equal"
  | .notEqual => "NotEqual"
  | .greater => "Greater"
  | .less => "Less"
  | .lessOrEqual => "LessOrEqual"
  | .greaterOrEqual => "GreaterOrEqual"

def instruction : Instruction UInt8 → Json
  | .nop => name "Nop"
  | .halt => name "Hlt"
  | .ret => name "Ret"
  | .interruptReturn => name "Iret"
  | .loadImmediate r v => variant "Ldi" [("reg", byte r), ("imm", byte v)]
  | .load r a => variant "Ld" [("dst", byte r), ("addr", byte a)]
  | .store a r => variant "St" [("addr", byte a), ("src", byte r)]
  | .alu op a b => variant "Alu" [("op", name (aluOpName op)), ("a", byte a), ("b", byte b)]
  | .addImmediate r v => variant "Addi" [("reg", byte r), ("imm", byte v)]
  | .push r => variant "Push" [("reg", byte r)]
  | .pop r => variant "Pop" [("reg", byte r)]
  | .call r => variant "Call" [("reg", byte r)]
  | .jump c r => variant "Jump" [("cond", name (conditionName c)), ("reg", byte r)]
  | .interrupt r => variant "Int" [("reg", byte r)]
  | .printNumber r => variant "Prn" [("reg", byte r)]
  | .printChar r => variant "Pra" [("reg", byte r)]
  | .printText a b => variant "Prm" [("start", byte a), ("end", byte b)]

def optional {α : Type} (write : α → Json) : Option α → Json
  | some a => write a
  | none => .null

def saved (s : SavedProcessor) : Json :=
  let p := s.processor
  record [("regs", registers p.registers), ("mem", cells s.cells),
    ("interrupts", interrupts p.interrupts), ("state", runState p.state),
    ("cycles", natural p.cycles.toNat), ("fault", optional fault p.fault),
    ("program_end", byte p.programEnd), ("last_instr", optional instruction p.lastInstruction)]

def processor (p : Processor) : Json := saved (.ofProcessor p)

/-! ## Reading -/

/-- The fields of a record in which others may stand and none may be cut off. -/
def fields? (names : List String) (v : Json) : Option (List (String × Json)) :=
  v.fields? ⟨names, true, false⟩

/-- A variant without content. -/
def unit? {α : Type} (a : α) (content : Json) : Option α := if content.isNull then some a else none

def runState? (v : Json) : Option RunState := do
  let (key, content) ← v.variant?
  match key with
  | "Running" => unit? .running content
  | "Halted" => unit? .halted content
  | "Faulted" => unit? .faulted content
  | _ => none

def bank? (v : Json) : Option (Vector UInt8 8) := do
  let values ← v.list? Json.byte?
  if h : values.length = 8 then some ⟨values.toArray, h⟩ else none

def registers? (v : Json) : Option RegisterFile := do
  let fields ← fields? ["gpr", "pc", "ir", "fl"] v
  let bank ← Json.field? fields "gpr" bank?
  let pc ← Json.field? fields "pc" Json.byte?
  let ir ← Json.field? fields "ir" Json.byte?
  let flags ← Json.field? fields "fl" Json.byte?
  return ⟨bank, pc, ir, ⟨flags⟩⟩

/-- The cells that a state lists, however many. -/
def cells? (v : Json) : Option (List UInt8) := do
  let fields ← fields? ["cells"] v
  Json.field? fields "cells" (Json.list? Json.byte?)

def interrupts? (v : Json) : Option InterruptController := do
  let fields ← fields? ["status", "servicing"] v
  let status ← Json.field? fields "status" Json.byte?
  let servicing ← Json.field? fields "servicing" Json.bool?
  return ⟨status, servicing⟩

/-- Content of one byte under a name. -/
def oneByte? {α : Type} (build : UInt8 → α) (key : String) (content : Json) : Option α := do
  let fields ← fields? [key] content
  return build (← Json.field? fields key Json.byte?)

/-- Content of two bytes under two names. -/
def twoBytes? {α : Type} (build : UInt8 → UInt8 → α) (first second : String) (content : Json) :
    Option α := do
  let fields ← fields? [first, second] content
  let a ← Json.field? fields first Json.byte?
  return build a (← Json.field? fields second Json.byte?)

def fault? (v : Json) : Option Fault := do
  let (key, content) ← v.variant?
  match key with
  | "NotRunning" => (runState? content).map .notRunning
  | "InvalidOpcode" => twoBytes? .invalidOpcode "address" "opcode" content
  | "InvalidRegister" => twoBytes? .invalidRegister "address" "operand" content
  | "DivisionByZero" => oneByte? .divisionByZero "address" content
  | "StackOverflow" => oneByte? .stackOverflow "sp" content
  | "StackUnderflow" => oneByte? .stackUnderflow "sp" content
  | _ => none

def conditions : List Condition :=
  [.always, .equal, .notEqual, .greater, .less, .lessOrEqual, .greaterOrEqual]

def aluOp? (v : Json) : Option AluOp := do
  let (key, content) ← v.variant?
  unit? (← AluOp.all.find? (aluOpName · == key)) content

def condition? (v : Json) : Option Condition := do
  let (key, content) ← v.variant?
  unit? (← conditions.find? (conditionName · == key)) content

def alu? (content : Json) : Option (Instruction UInt8) := do
  let fields ← fields? ["op", "a", "b"] content
  let op ← Json.field? fields "op" aluOp?
  let a ← Json.field? fields "a" Json.byte?
  return .alu op a (← Json.field? fields "b" Json.byte?)

def jump? (content : Json) : Option (Instruction UInt8) := do
  let fields ← fields? ["cond", "reg"] content
  let c ← Json.field? fields "cond" condition?
  return .jump c (← Json.field? fields "reg" Json.byte?)

def instruction? (v : Json) : Option (Instruction UInt8) := do
  let (key, content) ← v.variant?
  match key with
  | "Nop" => unit? .nop content
  | "Hlt" => unit? .halt content
  | "Ret" => unit? .ret content
  | "Iret" => unit? .interruptReturn content
  | "Ldi" => twoBytes? .loadImmediate "reg" "imm" content
  | "Ld" => twoBytes? .load "dst" "addr" content
  | "St" => twoBytes? .store "addr" "src" content
  | "Alu" => alu? content
  | "Addi" => twoBytes? .addImmediate "reg" "imm" content
  | "Push" => oneByte? .push "reg" content
  | "Pop" => oneByte? .pop "reg" content
  | "Call" => oneByte? .call "reg" content
  | "Jump" => jump? content
  | "Int" => oneByte? .interrupt "reg" content
  | "Prn" => oneByte? .printNumber "reg" content
  | "Pra" => oneByte? .printChar "reg" content
  | "Prm" => twoBytes? .printText "start" "end" content
  | _ => none

def processorFields : List String :=
  ["regs", "mem", "interrupts", "state", "cycles", "fault", "program_end", "last_instr"]

def saved? (v : Json) : Option SavedProcessor := do
  let fields ← fields? processorFields v
  let registers ← Json.field? fields "regs" registers?
  let cells ← Json.field? fields "mem" cells?
  let interrupts ← Json.field? fields "interrupts" interrupts?
  let state ← Json.field? fields "state" runState?
  let cycles ← Json.field? fields "cycles" Json.word64?
  let fault ← Json.fieldOr? fields "fault" none (Json.optional? fault?)
  let programEnd ← Json.field? fields "program_end" Json.byte?
  let last ← Json.fieldOr? fields "last_instr" none (Json.optional? instruction?)
  return ⟨⟨registers, .zero, interrupts, state, cycles, fault, programEnd, last⟩, cells, rfl⟩

end Snapshot

namespace Processor

/-- The state as text, without blanks. -/
def text (p : Processor) : String := (Snapshot.processor p).compact

/-- The state as text, a field to a line. -/
def prettyText (p : Processor) : String := (Snapshot.processor p).pretty

end Processor

namespace SavedProcessor

def text (s : SavedProcessor) : String := (Snapshot.saved s).compact

/-- The state that a text holds. -/
def ofText? (text : String) : Option SavedProcessor := Json.ofText? text >>= Snapshot.saved?

end SavedProcessor

/-- The instruction that JSON holds by itself. Its operands are given by name; only within a state may they
be listed in order. -/
def Instruction.ofJson? (v : Json) : Option (Instruction UInt8) :=
  if v.hasListedContent then none else Snapshot.instruction? v

/-- The instruction that a text holds. -/
def Instruction.ofText? (text : String) : Option (Instruction UInt8) :=
  Json.ofText? text >>= Instruction.ofJson?

/-- The instruction as text. -/
def Instruction.text (i : Instruction UInt8) : String := (Snapshot.instruction i).compact

end Microcomputer
