/-
# What was executed

Steps that go on execute an instruction, and a history of a machine executes one instruction after
another: with steps, with steps that are observed, and with runs, which take steps as long as these
go on.  This is the list of them, each with the machine it was executed on and the registers it
left.  What a step keeps of a machine and the list behind it, a history without a beginning keeps.

* `Executed`, `Machine.executed`: an instruction that was executed, and the one of a step;
* `Machine.executedFrom`: those of the rest of a run;
* `Act.executedAll`: those of a history;
* `Act.executedAll_keeps`: what steps keep of the list, a history keeps;
* `Act.steps_performAll`: the list is as long as the count of the machine.
-/
import MinionComputer.Proofs.Machine.History

namespace MinionComputer

variable {σ ε ω : Type} {dev : Device σ ε}

/-! ## 1. Steps and runs -/

/-- An instruction that was executed: the machine before it, its address and its cell, and the
registers after it. -/
structure Executed where
  before : Machine
  address : Address
  cell : Cell
  after : Registers

namespace Machine

/-- What a step of `m` with this result executed, where `after` is the machine after it. -/
def executed {α : Type} (m : Machine) (result : Except α StepResult) (after : Machine) :
    List Executed :=
  match result with
  | .ok ⟨.continued, a, c⟩ => [⟨m, a, c, after.registers⟩]
  | _ => []

/-- What the rest of a run executes of which `left` steps are left. -/
def executedFrom (dev : Device σ ε) : (left : Nat) → (first : Bool) → Machine → σ → List Executed
  | 0, _, _, _ => []
  | left + 1, first, m, s =>
    if !first && m.atBreakpoint then []
    else
      let t := m.step dev s
      match t.result with
      | .ok ⟨.continued, a, c⟩ =>
        ⟨m, a, c, t.machine.registers⟩ :: executedFrom dev left false t.machine t.device
      | _ => []

end Machine

/-! ## 2. Histories -/

namespace Act

/-- What is executed when it is done. -/
def executed (dev : Device σ ε) (a : Act σ ω) (m : Machine) (x : σ × List Call) : List Executed :=
  match a with
  | use .step =>
    let t := m.step dev.recorded x
    m.executed t.result t.machine
  | use (.checkedStep observer) =>
    let t := m.checkedStep dev.recorded observer x
    m.executed t.result t.machine
  | use (.run budget) => Machine.executedFrom dev.recorded budget.toNat true m x
  | _ => []

/-- What is executed when one thing after another is done. -/
def executedAll (dev : Device σ ε) : List (Act σ ω) → Machine → σ × List Call → List Executed
  | [], _, _ => []
  | a :: acts, m, x =>
    a.executed dev m x ++ executedAll dev acts (a.perform dev m x).1 (a.perform dev m x).2

end Act

/-! ## 3. What is kept -/

/-- What keeps `P` of a machine and of all that was executed on it: a step, and whatever leaves the
registers, the mode and the end of the run alone. -/
structure Machine.KeepsLog (dev : Device σ ε) (P : List Executed → Machine → Prop) : Prop where
  step : ∀ log m s, P log m →
    P (log ++ m.executed (m.step dev s).result (m.step dev s).machine) (m.step dev s).machine
  untouched : ∀ log m m', m.Untouched m' → P log m → P log m'

namespace Machine

variable {m m' : Machine} {s : σ}

/-- The registers behind an instruction that makes `m'` of the machine. -/
def registersAfter (m : Machine) (f : Fetched) (m' : Machine) : Registers :=
  ⟨m'.registers.acc, m.next f, m'.registers.negative, m'.registers.steps + 1⟩

/-- A step that executes an instruction executes just that one. -/
theorem Executes.executed_eq {f : Fetched} (h : Executes dev m s f m') :
    m.executed (m.step dev s).result (m.step dev s).machine =
      [⟨m, f.address, f.cell, m.registersAfter f m'⟩] := by
  rw [h.step_eq, executed, registers_advance]
  rfl

/-- A step that does not go on executes nothing. -/
theorem executed_of_not_continues (h : ¬ Continues dev m s) :
    m.executed (m.step dev s).result (m.step dev s).machine = [] := by
  unfold executed
  split
  · next a c hr => exact absurd ⟨a, c, hr⟩ h
  · rfl

theorem executed_mapError {α β : Type} (f : α → β) (m : Machine) (result : Except α StepResult)
    (after : Machine) : m.executed (result.mapError f) after = m.executed result after := by
  rcases result with e | ⟨o, a, c⟩
  · rfl
  · cases o <;> rfl

/-- What every instruction keeps of the registers and all that was executed, a step keeps. -/
theorem keepsLog_of_executes {P : List Executed → Registers → Prop}
    (h : ∀ log m s f m', Executes dev m s f m' → P log m.registers →
      P (log ++ [⟨m, f.address, f.cell, m.registersAfter f m'⟩]) (m.registersAfter f m')) :
    KeepsLog dev fun log m => m.Sound ∧ P log m.registers where
  step := by
    rintro log m s ⟨hsound, hP⟩
    refine ⟨hsound.step dev s, ?_⟩
    by_cases hgo : Continues dev m s
    · obtain ⟨f, m', hexecutes⟩ := hsound.exists_executes hgo
      rw [hexecutes.executed_eq, hexecutes.step_eq, registers_advance]
      exact h log m s f m' hexecutes hP
    · rw [executed_of_not_continues hgo, List.append_nil, (registers_of_not_continues hsound hgo).1]
      exact hP
  untouched := by
    rintro log m m' hm ⟨hsound, hP⟩
    rw [hm.registers]
    exact ⟨hsound.of_eq hm.registers hm.final, hP⟩

end Machine

namespace Machine.KeepsLog

open Machine

variable {P : List Executed → Machine → Prop} {log : List Executed} {m : Machine}

/-- An observed step executes what the other executes, or nothing; apart from the cells, it leaves
what that leaves. -/
theorem checkedStep (hP : KeepsLog dev P) (observer : Observer ω) (s : σ) (h : P log m) :
    P (log ++ m.executed (m.checkedStep dev observer s).result
        (m.checkedStep dev observer s).machine) (m.checkedStep dev observer s).machine := by
  have hcase := checkedCase_checkedStep dev observer m s
  have hstep := hP.step log m s h
  generalize m.checkedStep dev observer s = t at hcase ⊢
  induction hcase with
  | plain heq =>
    subst heq
    rw [Turn.checked, executed_mapError]
    exact hstep
  | @stored b f memory _ _ _ heq =>
    -- The observer may have left other cells, but the registers are those of the step.
    rw [heq, executed, registers_advance] at hstep
    rw [executed, registers_advance]
    exact hP.untouched _ _ _ ⟨by simp, by simp, by simp⟩ hstep
  | refused _ =>
    rw [← List.append_nil log] at h
    exact hP.untouched _ m _ ⟨rfl, rfl, rfl⟩ h

/-- The rest of a run keeps what steps keep. -/
theorem runFrom (hP : KeepsLog dev P) (budget : Int) (left : Nat) : ∀ (first : Bool)
    (notes : Array Note) (log : List Executed) (m : Machine) (s : σ), P log m →
      P (log ++ executedFrom dev left first m s)
        (runFrom dev budget left first notes m s).machine := by
  induction left with
  | zero =>
    intro first notes log m s h
    rw [executedFrom, List.append_nil]
    exact h
  | succ left ih =>
    intro first notes log m s h
    rw [executedFrom, Machine.runFrom]
    split
    · rw [List.append_nil]
      exact h
    · have hstep := hP.step log m s h
      unfold executed at hstep
      dsimp only
      rcases hr : (m.step dev s).result with f | ⟨o, a, c⟩
      · simp only [hr] at hstep ⊢
        exact hstep
      · cases o with
        | continued =>
          simp only [hr] at hstep ⊢
          rw [List.append_cons]
          exact ih _ _ _ _ _ hstep
        | _ =>
          simp only [hr] at hstep ⊢
          exact hstep

end Machine.KeepsLog

namespace Act

open Machine

variable {P : List Executed → Machine → Prop} {log : List Executed} {m : Machine}
  {x : σ × List Call}

/-- Every act in the course of a run keeps what steps keep. -/
theorem executed_keeps (hP : KeepsLog dev.recorded P) {a : Act σ ω} (ha : a.begins = false)
    (h : P log m) : P (log ++ a.executed dev m x) (a.perform dev m x).1 := by
  have hquiet : ∀ m', m.Untouched m' → P (log ++ []) m' := by
    intro m' hm
    rw [List.append_nil]
    exact hP.untouched log m m' hm h
  cases a with
  | rewrite f => exact hquiet _ ⟨rfl, rfl, rfl⟩
  | setTracing on => exact hquiet _ ⟨rfl, rfl, rfl⟩
  | clearTrace => exact hquiet _ ⟨rfl, rfl, rfl⟩
  | use u =>
    cases u with
    | step => exact hP.step log m x h
    | checkedStep observer => exact hP.checkedStep observer x h
    | run budget => exact hP.runFrom budget budget.toNat true #[] log m x h
    | reset => cases ha
    | load memory => cases ha
    | write address value =>
      simp only [perform, Use.perform]
      split
      · exact hquiet _ ⟨rfl, rfl, rfl⟩
      · exact hquiet _ ⟨rfl, rfl, rfl⟩
    | change f => exact hquiet _ ⟨rfl, rfl, rfl⟩
    | addBreakpoint b => exact hquiet _ ⟨rfl, rfl, rfl⟩
    | removeBreakpoint b => exact hquiet _ ⟨rfl, rfl, rfl⟩
    | clearBreakpoints => exact hquiet _ ⟨rfl, rfl, rfl⟩

/-- **What steps keep of a machine and of all that was executed on it, a history without a beginning
keeps.** -/
theorem executedAll_keeps (hP : KeepsLog dev.recorded P) {acts : List (Act σ ω)}
    (hacts : ∀ a ∈ acts, a.begins = false) (h : P log m) :
    P (log ++ executedAll dev acts m x) (performAll dev acts m x).1 := by
  induction acts generalizing log m x with
  | nil =>
    rw [executedAll, List.append_nil]
    exact h
  | cons a acts ih =>
    rw [List.forall_mem_cons] at hacts
    rw [executedAll, ← List.append_assoc]
    exact ih hacts.2 (executed_keeps hP hacts.1 h)

theorem keepsLog_steps (dev : Device σ ε) :
    KeepsLog dev fun log m => m.Sound ∧ m.registers.steps = log.length := by
  refine keepsLog_of_executes (P := fun log r => r.steps = log.length) ?_
  intro log m s f m' hexecutes h
  have hsteps : m'.registers.steps = m.registers.steps := (effect_of_perform hexecutes.performs).steps
  rw [List.length_append, List.length_singleton, Int.natCast_add, ← h, ← hsteps]
  rfl

/-- **Every instruction that the machine counts is in the list**, and none besides. -/
theorem steps_performAll (dev : Device σ ε) (hregisters : m.registers = {})
    (hfinal : m.final = none) {acts : List (Act σ ω)} (hacts : ∀ a ∈ acts, a.begins = false) :
    (performAll dev acts m x).1.registers.steps = (executedAll dev acts m x).length := by
  have hstart : m.Sound ∧ m.registers.steps = ([] : List Executed).length := by
    rw [hregisters]
    exact ⟨sound_of_fresh hregisters hfinal, rfl⟩
  exact (executedAll_keeps (keepsLog_steps dev.recorded) hacts hstart).2

end Act
end MinionComputer
