import Microcomputer.Processor.Basic

/-!
One-line views of the processor: the trace line that shows what is about to be executed, and the inspection
texts of memory and processor.
-/

namespace Microcomputer

/-- Named values between braces, after the name of what they belong to. -/
def inspectRecord (name : String) (fields : List (String × String)) : String :=
  name ++ " \x7b " ++ ", ".intercalate (fields.map fun (key, value) => key ++ ": " ++ value) ++ " \x7d"

namespace RegisterFile

def inspect (r : RegisterFile) : String :=
  inspectRecord "Registers"
    [("gpr", "[" ++ ", ".intercalate (r.bank.toList.map fun v => toString v.toNat) ++ "]"),
      ("pc", toString r.pc.toNat), ("ir", toString r.ir.toNat), ("fl", r.flags.text)]

end RegisterFile

namespace InterruptController

def inspect (c : InterruptController) : String :=
  inspectRecord "InterruptController"
    [("status", toString c.status.toNat), ("servicing", toString c.servicing)]

end InterruptController

namespace Memory

/-- Counts the cells that are not zero. The total is the number of addresses. -/
def inspect (m : Memory) : String :=
  inspectRecord "Memory"
    [("non_zero_cells", toString (m.toList.countP (· != 0))), ("total_cells", toString memorySize)]

end Memory

namespace Processor

def inspect (p : Processor) : String :=
  inspectRecord "Cpu"
    [("state", p.state.name), ("cycles", toString p.cycles.toNat),
      ("regs", p.registers.inspect), ("interrupts", p.interrupts.inspect)]

/-- The program counter, the three bytes there and all registers, in hexadecimal. -/
def traceLine (p : Processor) : String :=
  let bytes := [p.memory.read p.pc, p.memory.read (p.pc + 1), p.memory.read (p.pc + 2)]
  "TRACE: " ++ Text.hex p.pc ++ " | " ++ " ".intercalate (bytes.map Text.hex) ++ " | " ++
    " ".intercalate (p.registers.bank.toList.map Text.hex)

end Processor

end Microcomputer
