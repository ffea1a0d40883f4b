/-
# Runs

A run steps until something other than going on happens, until its budget of steps is used up, or
until it comes to a breakpoint.  A run never stops at a breakpoint before its first step, so that
it can be taken up where it stopped.

* `Machine.here`: the cell at the program counter;
* `Machine.run`: a run with a budget.
-/
import MinionComputer.Machine.Step

namespace MinionComputer
namespace Machine

variable {σ ε : Type}

/-- An outcome at the program counter. -/
def here (m : Machine) (o : Outcome) : Except (StepFault ε) StepResult :=
  match Address.ofInt? m.registers.pc with
  | none => .error (.address m.registers.pc)
  | some a => .ok ⟨o, a, m.memory.read a⟩

/-- Whether a run stops before the next step because of a breakpoint. -/
def atBreakpoint (m : Machine) : Bool :=
  m.final.isNone && m.breakpoints.contains m.registers.pc

/-- The note that a budget is used up. -/
def budgetNote (m : Machine) (budget : Int) : Note :=
  ⟨.debug, channel, "Step budget of " ++ Text.integer budget ++ " used up at " ++
    Text.field 2 m.registers.pc⟩

/-- The rest of a run of which `left` steps are left; `notes` were made before. -/
def runFrom (dev : Device σ ε) (budget : Int) :
    (left : Nat) → (first : Bool) → Array Note → Machine → σ → Turn σ ε
  | 0, _, notes, m, s =>
    ⟨m, s, (notes.push (m.budgetNote budget)).toList, m.here .timeout⟩
  | left + 1, first, notes, m, s =>
    if !first && m.atBreakpoint then ⟨m, s, notes.toList, m.here .breakpoint⟩
    else
      let t := m.step dev s
      let notes := notes ++ t.notes.toArray
      match t.result with
      | .ok ⟨.continued, _, _⟩ => runFrom dev budget left false notes t.machine t.device
      | _ => { t with notes := notes.toList }

/-- Runs for at most `budget` steps. -/
def run (dev : Device σ ε) (budget : Int) (m : Machine) (s : σ) : Turn σ ε :=
  runFrom dev budget budget.toNat true #[] m s

/-- Takes `count` steps, whatever they bring: the result of each with the machine after it. -/
def steps (dev : Device σ ε) : (count : Nat) → Machine → σ →
    Machine × σ × List Note × List (StepResult × Machine) × Option (StepFault ε)
  | 0, m, s => (m, s, [], [], none)
  | n + 1, m, s =>
    let t := m.step dev s
    match t.result with
    | .error e => (t.machine, t.device, t.notes, [], some e)
    | .ok r =>
      let (m', s', notes, results, fault) := steps dev n t.machine t.device
      (m', s', t.notes ++ notes, (r, t.machine) :: results, fault)

end Machine
end MinionComputer
