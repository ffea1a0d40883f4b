/-
# What steps do not see

A step looks at the registers, the memory, the mode and the end of the run, and it hands over what it
changes of these and what it adds to the trace.  A change to the machine that leaves the first alone
and lets the second through (`Unseen`) goes through the step as well: the changed machine takes the
step of the machine, with the change made to what comes out.  So it is with steps that check all
they do, and with runs if they come to the same breakpoints.

* `Machine.Unseen`: such changes;
* `Machine.Unseen.step`, `Machine.Unseen.run`: one step, and a run;
* `Machine.Unseen.checkedStep`: a step with all its checks.
-/
import MinionComputer.Proofs.Machine.Checked

namespace MinionComputer

variable {σ ε ω : Type}

/-- What was done, with the machine changed. -/
def Turn.changed (g : Machine → Machine) (t : Turn σ ε) : Turn σ ε :=
  { t with machine := g t.machine }

/-- What a step with checks did, with the machine changed. -/
def CheckedTurn.changed (g : Machine → Machine) (t : CheckedTurn σ ε ω) : CheckedTurn σ ε ω :=
  { t with machine := g t.machine }

/-- What an executor did, with the machine changed. -/
def Handled.changed (g : Machine → Machine) (h : Handled σ ε ω) : Handled σ ε ω :=
  { h with machine := g h.machine }

namespace Machine

/-- A change to machines that steps do not see: what they look at stays, and what they do to the
machine can be done before the change or behind it. -/
structure Unseen (g : Machine → Machine) : Prop where
  registers : ∀ m, (g m).registers = m.registers
  memory : ∀ m, (g m).memory = m.memory
  extended : ∀ m, (g m).extended = m.extended
  final : ∀ m, (g m).final = m.final
  withRegisters : ∀ m r, { g m with registers := r } = g { m with registers := r }
  withMemory : ∀ m memory, { g m with memory := memory } = g { m with memory := memory }
  withFinal : ∀ m r, { g m with final := r } = g { m with final := r }
  traced : ∀ m a c i, (g m).traced a c i = g (m.traced a c i)

namespace Unseen

variable {g : Machine → Machine} (hg : Unseen g) (dev : Device σ ε) (m : Machine) (s : σ)
include hg

/-! ## 1. One step -/

theorem setAcc (acc : Int) (negative : Bool) :
    (g m).setAcc acc negative = g (m.setAcc acc negative) := by
  rw [Machine.setAcc, hg.registers, hg.withRegisters]
  rfl

theorem next (f : Fetched) : (g m).next f = m.next f := by
  rw [Machine.next, hg.registers]
  rfl

theorem advance (f : Fetched) (n : Nat) : (g m).advance f n = g (m.advance f n) := by
  simp only [Machine.advance, hg.registers, hg.withRegisters, hg.traced]

theorem finish (notes : List Note) (r : StepResult) :
    ((g m).finish s notes r : Turn σ ε) = (m.finish s notes r).changed g := by
  rw [Machine.finish, hg.withFinal]
  rfl

/-- An instruction does to a changed machine what it does to the machine. -/
theorem perform (i : Instruction) :
    (g m).perform dev s i = (m.perform dev s i).map (Option.map g) := by
  cases i with
  | add a | subtract a | load a =>
    simp only [Machine.perform, hg.registers, hg.memory, hg.setAcc]
    rfl
  | store a =>
    rw [Machine.perform, hg.withMemory, hg.memory, hg.registers]
    rfl
  | readNumber =>
    simp only [Machine.perform, hg.setAcc]
    split <;> rfl
  | readCharacter =>
    simp only [Machine.perform, hg.setAcc, Answer.map]
    cases (dev.requestCharacter s).value with
    | error e => rfl
    | ok c => cases c <;> rfl
  | writeNumber =>
    simp only [Machine.perform, hg.registers, Answer.map]
    cases (dev.emitNumber (Cell.toInt m.registers.cell) s).value <;> rfl
  | writeCharacter =>
    simp only [Machine.perform, hg.registers, Answer.map]
    cases (dev.emitCharacter (Accumulator.lowByte (Cell.toInt m.registers.cell)) s).value <;> rfl
  | halt | extend | branch a | branchZero a | branchPositive a => rfl

theorem haltNote (f : Fetched) : (g m).haltNote f = m.haltNote f := by
  rw [Machine.haltNote, hg.registers]
  rfl

theorem execute (f : Fetched) :
    (g m).execute dev s f = (m.execute dev s f).changed g := by
  unfold Machine.execute
  rw [hg.next, hg.perform, hg.traced, hg.haltNote]
  split
  · exact hg.finish _ s _ _
  · split
    · exact hg.finish m s _ _
    · simp only [Answer.map]
      cases (m.perform dev s f.instruction).value with
      | error e => rfl
      | ok o =>
        cases o with
        | none => rfl
        | some m' => simp [Except.map, hg.advance, Turn.changed]

/-- **The step of a changed machine** is the step of the machine, changed. -/
theorem step : (g m).step dev s = (m.step dev s).changed g := by
  unfold Machine.step
  rw [hg.final, hg.memory, hg.registers, hg.extended]
  split
  · rfl
  · split
    · rfl
    · exact hg.finish m s _ _
    · exact hg.execute dev m s _

/-! ## 2. Runs -/

theorem here (o : Outcome) :
    ((g m).here o : Except (StepFault ε) StepResult) = m.here o := by
  rw [Machine.here, hg.registers, hg.memory]
  rfl

/-- The machines of a run have the breakpoints that it began with, so what the change makes of these
is all that matters. -/
theorem runFrom (budget : Int) : ∀ (left : Nat) (first : Bool) (notes : Array Note) (m : Machine)
    (s : σ), (∀ m', m'.breakpoints = m.breakpoints → (g m').atBreakpoint = m'.atBreakpoint) →
      runFrom dev budget left first notes (g m) s =
        (runFrom dev budget left first notes m s).changed g
  | 0, _, _, m, s, _ => by
    have hnote : (g m).budgetNote budget = m.budgetNote budget := by
      rw [budgetNote, hg.registers]
      rfl
    rw [Machine.runFrom, Machine.runFrom, hnote, hg.here]
    rfl
  | left + 1, first, notes, m, s, hbreak => by
    have hbreak' : ∀ m', m'.breakpoints = (m.step dev s).machine.breakpoints →
        (g m').atBreakpoint = m'.atBreakpoint := fun m' h =>
      hbreak m' (h.trans (breakpoints_step dev m s))
    rw [Machine.runFrom, Machine.runFrom, hbreak m rfl, hg.step, hg.here]
    split
    · rfl
    · simp only [Turn.changed]
      split
      · exact runFrom budget left false _ _ _ hbreak'
      · rfl

/-- **The run of a changed machine** is the run of the machine, changed, if both come to the same
breakpoints. -/
theorem run (budget : Int)
    (hbreak : ∀ m', m'.breakpoints = m.breakpoints → (g m').atBreakpoint = m'.atBreakpoint) :
    (g m).run dev budget s = (m.run dev budget s).changed g :=
  hg.runFrom dev budget budget.toNat true #[] m s hbreak

/-! ## 3. A step with all its checks -/

variable (observer : Observer ω)

theorem content : Executor.content (g m) = Executor.content m := by
  rw [Executor.content, hg.registers]
  rfl

theorem store (x : Argument) :
    (Executor.store observer x (g m) s : Handled σ ε ω) =
      (Executor.store observer x m s).changed g := by
  rw [Executor.store, hg.withMemory, hg.memory, hg.content]
  rfl

/-- An executor does to a changed machine what it does to the machine. -/
theorem executor {w : Mnemonic} {executor : Executor σ ε ω}
    (h : Executor.ofWord? dev observer w = some executor) (x : Argument) :
    executor x (g m) s = (executor x m s).changed g := by
  cases w with
  | add | sub | lda =>
    obtain rfl := Option.some.inj h
    simp only [Executor.compute, hg.memory, hg.registers, hg.setAcc]
    split <;> rfl
  | sto =>
    obtain rfl := Option.some.inj h
    exact hg.store m s observer x
  | br | brz | brp | ext =>
    obtain rfl := Option.some.inj h
    rfl
  | inp | ina =>
    obtain rfl := Option.some.inj h
    simp only [Executor.request, hg.setAcc]
    split <;> rfl
  | out | ota =>
    obtain rfl := Option.some.inj h
    simp only [Executor.emit, hg.content]
    rfl
  | hlt | dat => cases h

theorem checkedNext (i : Instruction) : (g m).checkedNext i = m.checkedNext i := by
  rw [Machine.checkedNext, hg.registers]
  rfl

theorem advanceTo (f : Fetched) (n : Int) : (g m).advanceTo f n = g (m.advanceTo f n) := by
  simp only [Machine.advanceTo, hg.registers, hg.withRegisters, hg.traced]

theorem checkedFinish (notes : List Note) (r : StepResult) :
    ((g m).checkedFinish s notes r : CheckedTurn σ ε ω) = (m.checkedFinish s notes r).changed g := by
  rw [Machine.checkedFinish, hg.withFinal]
  rfl

theorem checkedExecute (f : Fetched) :
    (g m).checkedExecute dev observer s f = (m.checkedExecute dev observer s f).changed g := by
  unfold Machine.checkedExecute
  rw [hg.registers, hg.traced, hg.haltNote, hg.checkedNext]
  split
  · exact hg.checkedFinish _ s _ _
  · split
    · rfl
    · split
      · exact hg.checkedFinish m s _ _
      · split
        · rfl
        · next executor hexecutor =>
          rw [hg.executor dev m s observer hexecutor]
          simp only [Handled.changed]
          split
          · rfl
          · rfl
          · simp only [hg.advanceTo, CheckedTurn.changed]

/-- **The step of a changed machine with all its checks** is that of the machine, changed. -/
theorem checkedStep :
    (g m).checkedStep dev observer s = (m.checkedStep dev observer s).changed g := by
  have hfetch : ((g m).checkedFetch : Except (Escape ε ω) Fetched) = m.checkedFetch := by
    rw [checkedFetch, hg.registers, hg.extended, hg.memory]
    rfl
  unfold Machine.checkedStep
  rw [hg.final, hfetch]
  split
  · rfl
  · split
    · exact hg.checkedFinish m s _ _
    · rfl
    · exact hg.checkedExecute dev m s observer _

end Unseen
end Machine
end MinionComputer
