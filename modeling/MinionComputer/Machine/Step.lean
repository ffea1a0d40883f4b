/-
# One step

A step fetches the cell at the program counter, finds its meaning, and either ends the run or
executes it.  It is decided before anything is executed whether the run would leave the memory.
An instruction that needs input which is not there, or whose device fails, changes nothing.

* `fetch`: the instruction at an address;
* `Machine.next`: the address after it;
* `Machine.perform`: what it does;
* `Machine.step`: all of it.
-/
import MinionComputer.Machine.Basic
import MinionComputer.Device.Basic

namespace MinionComputer

/-! ## 1. Fetching -/

/-- Why nothing is fetched. -/
inductive FetchFault where
  /-- The program counter is no address. -/
  | address (n : Int)
  /-- The cell has no meaning in this mode. -/
  | illegal (a : Address) (c : Cell)
  deriving DecidableEq, Repr

/-- The wording of a fault. -/
def FetchFault.message : FetchFault → String
  | .address n => (MemoryFault.address (.whole n)).message
  | .illegal a c =>
    "Invalid instruction " ++ Text.field 3 (Cell.toInt c) ++ " at address " ++
      Text.field 2 (Address.toInt a)

/-- An instruction with its address and its cell. -/
structure Fetched where
  address : Address
  cell : Cell
  instruction : Instruction
  deriving DecidableEq, Repr

/-- The instruction at `pc`. -/
def fetch (m : Memory) (pc : Int) (extended : Bool) : Except FetchFault Fetched :=
  match Address.ofInt? pc with
  | none => .error (.address pc)
  | some a =>
    match Instruction.ofCell extended (m.read a) with
    | none => .error (.illegal a (m.read a))
    | some i => .ok ⟨a, m.read a, i⟩

/-- Whether the run ends here: at a halt, and at the mark of extended mode away from address
0. -/
def Fetched.halts (f : Fetched) : Bool :=
  f.instruction == .halt || (f.instruction == .extend && f.address != 0)

/-! ## 2. Executing -/

/-- Why a step fails: the program counter is no address, or the device failed. -/
inductive StepFault (ε : Type) where
  | address (n : Int)
  | device (e : ε)
  deriving DecidableEq, Repr

/-- What a step or a run did: the machine and the device after it, its notes and its result. -/
structure Turn (σ ε : Type) where
  machine : Machine
  device : σ
  notes : List Note
  result : Except (StepFault ε) StepResult

namespace Machine

variable {σ ε : Type}

/-- The address of the instruction after this one: where a branch that is taken leads to, or the
next. -/
def next (m : Machine) (f : Fetched) : Nat :=
  match f.instruction with
  | .branch a => a.val
  | .branchZero a => if m.registers.acc = 0 then a.val else f.address.val + 1
  | .branchPositive a => if m.registers.negative then f.address.val + 1 else a.val
  | _ => f.address.val + 1

/-- The note that a number was too large or too small for a cell. -/
def clampNotes (n : Int) : List Note :=
  let c := Cell.toInt (Cell.clamp n)
  if c = n then []
  else [⟨.warning, channel, "Input " ++ Text.integer n ++ " out of range, clamped to " ++
    Text.integer c⟩]

/-- What an instruction does to the machine and the device; no machine comes out while it waits
for input. -/
def perform (dev : Device σ ε) (m : Machine) (s : σ) : Instruction → Answer σ ε (Option Machine)
  | .add a =>
    let r := Accumulator.add m.registers.acc (Cell.toInt (m.memory.read a))
    .quiet s (.ok (some (m.setAcc r.1 r.2)))
  | .subtract a =>
    let r := Accumulator.subtract m.registers.acc (Cell.toInt (m.memory.read a))
    .quiet s (.ok (some (m.setAcc r.1 r.2)))
  | .store a => .quiet s (.ok (some { m with memory := m.memory.write a m.registers.cell }))
  | .load a => .quiet s (.ok (some (m.setAcc (Cell.toInt (m.memory.read a)) false)))
  | .readNumber =>
    let a := dev.requestNumber s
    match a.value with
    | .ok (some n) =>
      ⟨a.state, a.notes ++ clampNotes n,
        .ok (some (m.setAcc (Cell.toInt (Cell.clamp n)) false))⟩
    | .ok none => ⟨a.state, a.notes, .ok none⟩
    | .error e => ⟨a.state, a.notes, .error e⟩
  | .readCharacter =>
    (dev.requestCharacter s).map fun c => c.map fun n => m.setAcc (Accumulator.lowByte n) false
  | .writeNumber =>
    (dev.emitNumber (Cell.toInt m.registers.cell) s).map fun _ => some m
  | .writeCharacter =>
    (dev.emitCharacter (Accumulator.lowByte (Cell.toInt m.registers.cell)) s).map fun _ => some m
  | .halt | .extend | .branch _ | .branchZero _ | .branchPositive _ => .quiet s (.ok (some m))

/-! ## 3. Stepping -/

/-- The end of a run. -/
def finish (m : Machine) (s : σ) (notes : List Note) (r : StepResult) : Turn σ ε :=
  ⟨{ m with final := some r }, s, notes, .ok r⟩

/-- The machine after an instruction that was executed. -/
def advance (m : Machine) (f : Fetched) (next : Nat) : Machine :=
  let r := m.registers
  let m' := { m with registers := { r with pc := next, steps := r.steps + 1 } }
  m'.traced f.address f.cell f.instruction

/-- The note on halting. -/
def haltNote (m : Machine) (f : Fetched) : Note :=
  ⟨.debug, channel, "HLT at " ++ Text.field 2 (Address.toInt f.address) ++ " after " ++
    Text.integer m.registers.steps ++ " steps"⟩

/-- The note on leaving the memory. -/
def endNote (f : Fetched) : Note :=
  ⟨.warning, channel, "Execution ran past address " ++ Text.field 2 (Address.toInt f.address) ++
    " (cell " ++ Text.field 3 (Cell.toInt f.cell) ++ ")"⟩

/-- Executes what was fetched. -/
def execute (dev : Device σ ε) (m : Machine) (s : σ) (f : Fetched) : Turn σ ε :=
  if f.halts then
    (m.traced f.address f.cell f.instruction).finish s [m.haltNote f] ⟨.halted, f.address, f.cell⟩
  else if 100 ≤ m.next f then m.finish s [endNote f] ⟨.reachedEnd, f.address, f.cell⟩
  else
    let a := m.perform dev s f.instruction
    match a.value with
    | .error e => ⟨m, a.state, a.notes, .error (.device e)⟩
    | .ok none => ⟨m, a.state, a.notes, .ok ⟨.awaitingInput, f.address, f.cell⟩⟩
    | .ok (some m') =>
      ⟨m'.advance f (m.next f), a.state, a.notes, .ok ⟨.continued, f.address, f.cell⟩⟩

/-- One step.  A run that is over stays over and gives its result again. -/
def step (dev : Device σ ε) (m : Machine) (s : σ) : Turn σ ε :=
  match m.final with
  | some r => ⟨m, s, [], .ok r⟩
  | none =>
    match fetch m.memory m.registers.pc m.extended with
    | .error (.address n) => ⟨m, s, [], .error (.address n)⟩
    | .error (.illegal a c) =>
      m.finish s [⟨.warning, channel, (FetchFault.illegal a c).message⟩]
        ⟨.invalidInstruction, a, c⟩
    | .ok f => m.execute dev s f

/-- A run that is over is not touched by a step. -/
theorem step_of_final (dev : Device σ ε) {m : Machine} (s : σ) {r : StepResult}
    (h : m.final = some r) : m.step dev s = ⟨m, s, [], .ok r⟩ := by
  simp [step, h]

end Machine
end MinionComputer
