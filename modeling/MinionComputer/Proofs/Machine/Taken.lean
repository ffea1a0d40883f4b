/-
# The steps of a history

A machine with a history has taken one step after another: some executed an instruction, one may
have halted the run, and some did nothing but wait for input or give the last result again.  This is
the list of all that came to a result, each with the machine it was taken on.  What a step keeps of
the machine and the list behind it is kept by a whole history, and it may be about the trace if the
history leaves that to the steps.

* `Taken`, `Machine.taken`: a step that was taken, and the one behind a result;
* `Machine.takenFrom`, `Act.takenAll`: those of the rest of a run, and of a history;
* `Act.sparesTrace`: the acts that leave the trace to the steps;
* `Act.takenAll_keeps`: what steps keep of the list, such a history keeps.
-/
import MinionComputer.Proofs.Machine.History

namespace MinionComputer

variable {σ ε ω : Type} {dev : Device σ ε}

/-! ## 1. Steps and runs -/

/-- A step that was taken: the machine before it, its result, and the registers after it. -/
structure Taken where
  before : Machine
  result : StepResult
  after : Registers

namespace Taken

/-- Whether the step executed an instruction. -/
def executes (t : Taken) : Bool := t.result.outcome == .continued

/-- Whether the step halted the run.  One that gives the result of a halted run again does not. -/
def halts (t : Taken) : Bool := t.result.outcome == .halted && t.before.final.isNone

end Taken

namespace Machine

/-- The step of `m` with this result, where `after` is the machine after it; a fault is none. -/
def taken {α : Type} (m : Machine) (result : Except α StepResult) (after : Machine) : List Taken :=
  match result with
  | .ok r => [⟨m, r, after.registers⟩]
  | .error _ => []

/-- The steps of the rest of a run of which `left` steps are left. -/
def takenFrom (dev : Device σ ε) : (left : Nat) → (first : Bool) → Machine → σ → List Taken
  | 0, _, _, _ => []
  | left + 1, first, m, s =>
    if !first && m.atBreakpoint then []
    else
      let t := m.step dev s
      m.taken t.result t.machine ++
        match t.result with
        | .ok ⟨.continued, _, _⟩ => takenFrom dev left false t.machine t.device
        | _ => []

end Machine

/-! ## 2. Histories -/

namespace Act

/-- The steps that are taken when it is done. -/
def taken (dev : Device σ ε) (a : Act σ ω) (m : Machine) (x : σ × List Call) : List Taken :=
  match a with
  | use .step =>
    let t := m.step dev.recorded x
    m.taken t.result t.machine
  | use (.checkedStep observer) =>
    let t := m.checkedStep dev.recorded observer x
    m.taken t.result t.machine
  | use (.run budget) => Machine.takenFrom dev.recorded budget.toNat true m x
  | _ => []

/-- The steps that are taken when one thing after another is done. -/
def takenAll (dev : Device σ ε) : List (Act σ ω) → Machine → σ × List Call → List Taken
  | [], _, _ => []
  | a :: acts, m, x =>
    a.taken dev m x ++ takenAll dev acts (a.perform dev m x).1 (a.perform dev m x).2

/-- Whether it leaves the trace to the steps: no run begins with it, and it neither clears the trace
nor switches it off. -/
def sparesTrace : Act σ ω → Bool
  | use .reset | use (.load _) | clearTrace => false
  | setTracing on => on
  | _ => true

end Act

/-! ## 3. What is kept -/

namespace Machine

variable {m : Machine}

@[simp] theorem tracing_advance (f : Fetched) (n : Nat) : (m.advance f n).tracing = m.tracing :=
  (sameSetting_advance f n).tracing

theorem trace_traced (htracing : m.tracing = true) (a : Address) (c : Cell) (i : Instruction) :
    (m.traced a c i).trace = m.trace.push ⟨a, c, i, m.registers⟩ := by
  rw [traced, if_pos htracing]

@[simp] theorem trace_advance (f : Fetched) (n : Nat) :
    (m.advance f n).trace =
      if m.tracing then m.trace.push ⟨f.address, f.cell, f.instruction, (m.advance f n).registers⟩
      else m.trace := by
  rw [registers_advance, advance, traced]
  split <;> rfl

/-- No effect writes into the trace. -/
theorem Effect.trace {m' : Machine} (h : Effect m m') : m'.trace = m.trace := by
  cases h <;> rfl

/-- Nothing was written into the trace: it was left alone with the registers and the end of the run,
and it is kept as before. -/
structure Unwritten (m m' : Machine) : Prop where
  registers : m'.registers = m.registers
  final : m'.final = m.final
  tracing : m.tracing = true → m'.tracing = true
  trace : m'.trace = m.trace

/-- What keeps `P` of a machine and all the steps that were taken: a step, and whatever writes
nothing into the trace. -/
structure KeepsTaken (dev : Device σ ε) (P : List Taken → Machine → Prop) : Prop where
  step : ∀ log m s, P log m →
    P (log ++ m.taken (m.step dev s).result (m.step dev s).machine) (m.step dev s).machine
  unwritten : ∀ log m m', m.Unwritten m' → P log m → P log m'

theorem taken_mapError {α β : Type} (f : α → β) (m : Machine) (result : Except α StepResult)
    (after : Machine) : m.taken (result.mapError f) after = m.taken result after := by
  cases result <;> rfl

end Machine

namespace Machine.KeepsTaken

open Machine

variable {P : List Taken → Machine → Prop} {log : List Taken} {m : Machine}

/-- An observed step is a step like any other, but for the cells that its observer leaves, or it has
no result. -/
theorem checkedStep (hP : KeepsTaken dev P) (observer : Observer ω) (s : σ) (h : P log m) :
    P (log ++ m.taken (m.checkedStep dev observer s).result
        (m.checkedStep dev observer s).machine) (m.checkedStep dev observer s).machine := by
  have hcase := checkedCase_checkedStep dev observer m s
  have hstep := hP.step log m s h
  generalize m.checkedStep dev observer s = t at hcase ⊢
  induction hcase with
  | plain heq =>
    subst heq
    rw [Turn.checked, taken_mapError]
    exact hstep
  | @stored b f memory _ _ _ heq =>
    rw [heq, taken, registers_advance] at hstep
    rw [taken, registers_advance]
    exact hP.unwritten _ _ _ ⟨by simp, by simp, by simp, by simp⟩ hstep
  | refused _ =>
    rw [taken, List.append_nil]
    exact hP.unwritten _ m _ ⟨rfl, rfl, id, rfl⟩ h

/-- The rest of a run keeps what steps keep. -/
theorem runFrom (hP : KeepsTaken dev P) (budget : Int) (left : Nat) : ∀ (first : Bool)
    (notes : Array Note) (log : List Taken) (m : Machine) (s : σ), P log m →
      P (log ++ takenFrom dev left first m s)
        (runFrom dev budget left first notes m s).machine := by
  induction left with
  | zero =>
    intro first notes log m s h
    rw [takenFrom, List.append_nil]
    exact h
  | succ left ih =>
    intro first notes log m s h
    rw [takenFrom, Machine.runFrom]
    split
    · rw [List.append_nil]
      exact h
    · have hstep := hP.step log m s h
      dsimp only
      rw [← List.append_assoc]
      rcases hr : (m.step dev s).result with f | ⟨o, a, c⟩
      · simp only [hr, List.append_nil] at hstep ⊢
        exact hstep
      · cases o with
        | continued =>
          simp only [hr] at hstep ⊢
          exact ih _ _ _ _ _ hstep
        | _ =>
          simp only [hr, List.append_nil] at hstep ⊢
          exact hstep

end Machine.KeepsTaken

namespace Act

open Machine

variable {P : List Taken → Machine → Prop} {log : List Taken} {m : Machine} {x : σ × List Call}

/-- Every act that spares the trace keeps what steps keep. -/
theorem taken_keeps (hP : KeepsTaken dev.recorded P) {a : Act σ ω} (ha : a.sparesTrace = true)
    (h : P log m) : P (log ++ a.taken dev m x) (a.perform dev m x).1 := by
  have hquiet : ∀ m', m.Unwritten m' → P (log ++ []) m' := by
    intro m' hm
    rw [List.append_nil]
    exact hP.unwritten log m m' hm h
  cases a with
  | rewrite f => exact hquiet _ ⟨rfl, rfl, id, rfl⟩
  | setTracing on => exact hquiet _ ⟨rfl, rfl, fun _ => ha, rfl⟩
  | clearTrace => cases ha
  | use u =>
    cases u with
    | step => exact hP.step log m x h
    | checkedStep observer => exact hP.checkedStep observer x h
    | run budget => exact hP.runFrom budget budget.toNat true #[] log m x h
    | reset => cases ha
    | load memory => cases ha
    | write address value =>
      simp only [perform, Use.perform]
      split
      · exact hquiet _ ⟨rfl, rfl, id, rfl⟩
      · exact hquiet _ ⟨rfl, rfl, id, rfl⟩
    | change f => exact hquiet _ ⟨rfl, rfl, id, rfl⟩
    | addBreakpoint b => exact hquiet _ ⟨rfl, rfl, id, rfl⟩
    | removeBreakpoint b => exact hquiet _ ⟨rfl, rfl, id, rfl⟩
    | clearBreakpoints => exact hquiet _ ⟨rfl, rfl, id, rfl⟩

/-- **What steps keep of a machine and of the steps behind it, a history that spares the trace
keeps.** -/
theorem takenAll_keeps (hP : KeepsTaken dev.recorded P) {acts : List (Act σ ω)}
    (hacts : ∀ a ∈ acts, a.sparesTrace = true) (h : P log m) :
    P (log ++ takenAll dev acts m x) (performAll dev acts m x).1 := by
  induction acts generalizing log m x with
  | nil =>
    rw [takenAll, List.append_nil]
    exact h
  | cons a acts ih =>
    rw [List.forall_mem_cons] at hacts
    rw [takenAll, ← List.append_assoc]
    exact ih hacts.2 (taken_keeps hP hacts.1 h)

end Act
end MinionComputer
