/-
# The machine on digits

The same machine described with nothing but numbers: a cell is its number, its hundreds digit says
what to do, and its other two digits are an address.  There are no words, no tables and no bounded
types here, so this is what the instructions of the machine are supposed to mean.

* `Numeric.step`: one step, with what it asks of its device;
* `Numeric.steps`: steps one after another, with the result of each.
-/
import MinionComputer.Machine.Run
import MinionComputer.Proofs.Device.Recorded

namespace MinionComputer

/-! ## 1. The machine -/

/-- An outcome with the address and the cell it came at, as numbers. -/
structure NumericResult where
  outcome : Outcome
  address : Int
  cell : Int
  deriving DecidableEq, Repr

/-- A machine on digits. -/
structure Numeric where
  acc : Int := 0
  pc : Int := 0
  negative : Bool := false
  executed : Int := 0
  cells : Int → Int
  extended : Bool
  final : Option NumericResult := none

/-- What a step did: the machine and the device after it, what it asked of the device, and its
result, or the fault of the device. -/
structure NumericTurn (σ ε : Type) where
  machine : Numeric
  device : σ
  calls : List Call
  result : Except ε NumericResult

/-- What some steps did: the machine and the device after them, what they asked of the device, the
result of each with the machine after it, and the fault that ended them. -/
structure NumericRun (σ ε : Type) where
  machine : Numeric
  device : σ
  calls : List Call
  results : List (NumericResult × Numeric)
  fault : Option ε

namespace Numeric

variable {σ ε : Type}

/-- A new machine on these cells.  It is in extended mode if the first of them is 010. -/
def start (cells : Int → Int) : Numeric :=
  { cells := cells, extended := decide (cells 0 = 10) }

/-- The cell at the program counter. -/
def cell (d : Numeric) : Int := d.cells d.pc

/-- Its hundreds digit. -/
def hundreds (d : Numeric) : Int := d.cell / 100

/-- Its last two digits. -/
def operand (d : Numeric) : Int := d.cell % 100

/-- A result at the program counter. -/
def here (d : Numeric) (o : Outcome) : NumericResult := ⟨o, d.pc, d.cell⟩

/-! ## 2. The instruction at the program counter -/

/-- The cell has no meaning. -/
def Illegal (d : Numeric) : Prop :=
  d.hundreds = 4 ∨
    d.hundreds = 9 ∧ d.cell ≠ 901 ∧ d.cell ≠ 902 ∧
      ¬ (d.extended = true ∧ (d.cell = 911 ∨ d.cell = 912))

instance (d : Numeric) : Decidable d.Illegal := inferInstanceAs (Decidable (_ ∨ _))

/-- The cell halts: all below one hundred do, but for the mark of extended mode at address 0. -/
def Halts (d : Numeric) : Prop :=
  d.hundreds = 0 ∧ ¬ (d.extended = true ∧ d.cell = 10 ∧ d.pc = 0)

instance (d : Numeric) : Decidable d.Halts := inferInstanceAs (Decidable (_ ∧ _))

/-- The address after this one. -/
def next (d : Numeric) : Int :=
  if d.hundreds = 6 ∨ (d.hundreds = 7 ∧ d.acc = 0) ∨ (d.hundreds = 8 ∧ d.negative = false) then
    d.operand
  else d.pc + 1

/-- The machine with another accumulator and flag. -/
def setAcc (d : Numeric) (acc : Int) (negative : Bool) : Numeric :=
  { d with acc := acc, negative := negative }

/-- The machine with another cell. -/
def setCell (d : Numeric) (address value : Int) : Numeric :=
  { d with cells := fun a => if a = address then value else d.cells a }

/-- The last three digits of a number, with its sign. -/
def lastDigits (n : Int) : Int := n.sign * ((n.natAbs % 1000 : Nat) : Int)

/-- The accumulator without its sign. -/
def magnitude (d : Numeric) : Int := (d.acc.natAbs : Int)

/-- What the instruction does to the machine and the device, and what it asks; no machine comes
out while it waits for input. -/
def perform (dev : Device σ ε) (d : Numeric) (s : σ) :
    List Call × σ × Except ε (Option Numeric) :=
  if d.hundreds = 1 then
    let r := d.acc + d.cells d.operand
    ([], s, .ok (some (d.setAcc (lastDigits r) (decide (r < 0 ∨ 999 < r)))))
  else if d.hundreds = 2 then
    let r := d.acc - d.cells d.operand
    ([], s, .ok (some (d.setAcc (lastDigits r) (decide (r < 0)))))
  else if d.hundreds = 3 then ([], s, .ok (some (d.setCell d.operand d.magnitude)))
  else if d.hundreds = 5 then ([], s, .ok (some (d.setAcc (d.cells d.operand) false)))
  else if d.cell = 901 then
    let a := dev.requestNumber s
    ([.requestNumber], a.state,
      a.value.map fun x => x.map fun n => d.setAcc (max 0 (min 999 n)) false)
  else if d.cell = 902 then
    let a := dev.emitNumber d.magnitude s
    ([.emitNumber d.magnitude], a.state, a.value.map fun _ => some d)
  else if d.cell = 911 then
    let a := dev.requestCharacter s
    ([.requestCharacter], a.state, a.value.map fun x => x.map fun n => d.setAcc (n % 256) false)
  else if d.cell = 912 then
    let a := dev.emitCharacter (d.magnitude % 256) s
    ([.emitCharacter (d.magnitude % 256)], a.state, a.value.map fun _ => some d)
  else ([], s, .ok (some d))

/-! ## 3. Steps -/

/-- The end of a run. -/
def finish (d : Numeric) (s : σ) (o : Outcome) : NumericTurn σ ε :=
  ⟨{ d with final := some (d.here o) }, s, [], .ok (d.here o)⟩

/-- The machine after an instruction that was executed. -/
def advance (d : Numeric) (next : Int) : Numeric :=
  { d with pc := next, executed := d.executed + 1 }

/-- Executes the instruction. -/
def execute (dev : Device σ ε) (d : Numeric) (s : σ) : NumericTurn σ ε :=
  let x := d.perform dev s
  match x.2.2 with
  | .error e => ⟨d, x.2.1, x.1, .error e⟩
  | .ok none => ⟨d, x.2.1, x.1, .ok (d.here .awaitingInput)⟩
  | .ok (some d') => ⟨d'.advance d.next, x.2.1, x.1, .ok (d.here .continued)⟩

/-- One step.  A run that is over stays over and gives its result again. -/
def step (dev : Device σ ε) (d : Numeric) (s : σ) : NumericTurn σ ε :=
  match d.final with
  | some r => ⟨d, s, [], .ok r⟩
  | none =>
    if d.Illegal then d.finish s .invalidInstruction
    else if d.Halts then d.finish s .halted
    else if d.next = 100 then d.finish s .reachedEnd
    else d.execute dev s

/-- Takes `count` steps, whatever they bring, until the device fails. -/
def steps (dev : Device σ ε) : (count : Nat) → Numeric → σ → NumericRun σ ε
  | 0, d, s => ⟨d, s, [], [], none⟩
  | n + 1, d, s =>
    let t := d.step dev s
    match t.result with
    | .error e => ⟨t.machine, t.device, t.calls, [], some e⟩
    | .ok r =>
      let rest := steps dev n t.machine t.device
      ⟨rest.machine, rest.device, t.calls ++ rest.calls, (r, t.machine) :: rest.results,
        rest.fault⟩

end Numeric
end MinionComputer
