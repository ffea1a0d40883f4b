/-
# The machine

Registers, memory, the mode it runs in, and what is kept about the run.  The mode is read off
cell 0 when the run begins and does not change until the next one, whatever happens to that cell.

* `Outcome`, `StepResult`: what a step or a run ended with;
* `Machine.start`, `Machine.reset`, `Machine.load`: the three beginnings of a run;
* `TraceLine`: what is kept about an executed instruction.
-/
import MinionComputer.Machine.Registers
import MinionComputer.Instruction.Basic
import MinionComputer.Memory.Argument
import MinionComputer.Note

namespace MinionComputer

/-! ## 1. Results -/

/-- What a step or a run ended with.  The last two are for runs only. -/
inductive Outcome where
  | continued
  | halted
  | awaitingInput
  | invalidInstruction
  | reachedEnd
  | timeout
  | breakpoint
  deriving DecidableEq, Repr

namespace Outcome

/-- The name of an outcome. -/
def name : Outcome → String
  | continued => "CONTINUED"
  | halted => "HALTED"
  | awaitingInput => "AWAITING_INPUT"
  | invalidInstruction => "INVALID_INSTRUCTION"
  | reachedEnd => "REACHED_END"
  | timeout => "TIMEOUT"
  | breakpoint => "BREAK"

/-- Whether a run is over with it. -/
def isTerminal : Outcome → Bool
  | halted | invalidInstruction | reachedEnd => true
  | _ => false

/-- Whether it is a fault of the program. -/
def isError : Outcome → Bool
  | invalidInstruction | reachedEnd => true
  | _ => false

end Outcome

/-- An outcome with the address and the cell it came at. -/
structure StepResult where
  outcome : Outcome
  address : Address
  cell : Cell
  deriving DecidableEq, Repr

/-- A result in words. -/
def StepResult.message (r : StepResult) : String :=
  r.outcome.name ++ " at " ++ Text.field 2 (Address.toInt r.address) ++ " (cell " ++
    Text.field 3 (Cell.toInt r.cell) ++ ")"

/-! ## 2. Traces -/

/-- An instruction that was executed, where and from which cell, and the registers after it. -/
structure TraceLine where
  address : Address
  cell : Cell
  instruction : Instruction
  registers : Registers
  deriving DecidableEq, Repr

/-- A line of a trace. -/
def TraceLine.text (t : TraceLine) : List Char :=
  Address.digits t.address ++ ':' :: ' ' :: Cell.digits t.cell ++ [' ', ' '] ++
    Text.leftAligned 7 t.instruction.text ++ ' ' :: t.registers.display

/-! ## 3. Machines -/

/-- A machine. -/
structure Machine where
  registers : Registers := {}
  memory : Memory := .blank
  extended : Bool := false
  /-- The result that ended the run, once there is one. -/
  final : Option StepResult := none
  breakpoints : List Int := []
  tracing : Bool := false
  trace : Array TraceLine := #[]

namespace Machine

/-- The channel of the notes of machines. -/
def channel : String := "lmc_emulator.emu"

/-- Whether a run on this memory is in extended mode. -/
def latches (m : Memory) : Bool := m.read 0 == 10

/-- A new machine on a memory. -/
def start (m : Memory) : Machine := { memory := m, extended := latches m }

/-- The machine at the beginning of a run on its memory.  Breakpoints stay, and so does whether a
trace is kept. -/
def reset (m : Machine) : Machine :=
  { m with registers := {}, final := none, trace := #[], extended := latches m.memory }

/-- The machine at the beginning of a run on another memory. -/
def load (m : Machine) (memory : Memory) : Machine := reset { m with memory := memory }

/-- The note that a run begins. -/
def startNote (m : Machine) : Note :=
  ⟨.debug, channel, "Run start: extended mode " ++ if m.extended then "on" else "off"⟩

/-- The machine with a breakpoint. -/
def addBreakpoint (m : Machine) (a : Int) : Machine :=
  { m with breakpoints := if a ∈ m.breakpoints then m.breakpoints else a :: m.breakpoints }

/-- The machine without a breakpoint. -/
def removeBreakpoint (m : Machine) (a : Int) : Machine :=
  { m with breakpoints := m.breakpoints.filter (· != a) }

/-- The machine without breakpoints. -/
def clearBreakpoints (m : Machine) : Machine := { m with breakpoints := [] }

/-- The machine with tracing on or off. -/
def setTracing (m : Machine) (on : Bool) : Machine := { m with tracing := on }

/-- The machine with nothing in its trace. -/
def clearTrace (m : Machine) : Machine := { m with trace := #[] }

/-- The trace as a text. -/
def traceText (m : Machine) : List Char :=
  Text.joinWith '\n' (m.trace.toList.map TraceLine.text)

/-- The machine with the accumulator and the flag set. -/
def setAcc (m : Machine) (acc : Int) (negative : Bool) : Machine :=
  { m with registers := { m.registers with acc := acc, negative := negative } }

/-- The machine with a line more in its trace, if it keeps one. -/
def traced (m : Machine) (a : Address) (c : Cell) (i : Instruction) : Machine :=
  if m.tracing then { m with trace := m.trace.push ⟨a, c, i, m.registers⟩ } else m

@[simp] theorem reset_memory (m : Machine) : m.reset.memory = m.memory := rfl

@[simp] theorem load_memory (m : Machine) (memory : Memory) : (m.load memory).memory = memory := rfl

end Machine
end MinionComputer
