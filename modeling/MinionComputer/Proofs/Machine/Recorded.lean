/-
# What a machine asks of its device

A device with a record does what it would do without, so the record shows what a machine asks.
Whatever that is, it is proper: a number that is written is a cell, and a character that is
written has a code of eight bits.

* `Machine.calls`, `Machine.Asks`: what an instruction and a step ask;
* `Machine.step_recorded`, `Machine.steps_recorded`: a record makes no difference;
* `Machine.proper_step`, `Machine.proper_run`: what is asked is proper;
* `Machine.Sound.raises_of_step`: a step fails only when its device does.
-/
import MinionComputer.Proofs.Machine.Run

namespace MinionComputer
namespace Machine

variable {σ ε : Type} {dev : Device σ ε} {m : Machine} {s : σ}

/-! ## 1. What a step asks -/

/-- What an instruction asks of the device. -/
def calls (m : Machine) : Instruction → List Call
  | .readNumber => [.requestNumber]
  | .readCharacter => [.requestCharacter]
  | .writeNumber => [.emitNumber (Cell.toInt m.registers.cell)]
  | .writeCharacter => [.emitCharacter (Accumulator.lowByte (Cell.toInt m.registers.cell))]
  | _ => []

/-- What a step asks of the device: nothing, or what the instruction asks that it fetches. -/
inductive Asks (m : Machine) : List Call → Prop
  | nothing : Asks m []
  | fetched {f : Fetched} (hf : fetch m.memory m.registers.pc m.extended = .ok f) :
      Asks m (m.calls f.instruction)

/-- **What an instruction asks is proper.** -/
theorem proper_calls (m : Machine) (i : Instruction) : ∀ c ∈ m.calls i, c.Proper := by
  have hcell := Cell.toInt_bounds m.registers.cell
  intro c hc
  cases i with
  | readNumber | readCharacter =>
    cases List.mem_singleton.mp hc
    exact trivial
  | writeNumber =>
    cases List.mem_singleton.mp hc
    exact hcell
  | writeCharacter =>
    cases List.mem_singleton.mp hc
    show 0 ≤ Cell.toInt m.registers.cell % 256 ∧ Cell.toInt m.registers.cell % 256 ≤ 255
    omega
  | _ => cases hc

theorem Asks.proper {calls : List Call} (h : m.Asks calls) : ∀ c ∈ calls, c.Proper := by
  cases h with
  | nothing => simp
  | fetched _ => exact m.proper_calls _

/-! ## 2. Recording makes no difference -/

/-- The calls of an instruction come behind the record, and the rest is as it is without one. -/
theorem perform_recorded (m : Machine) (dev : Device σ ε) (s : σ) (record : List Call)
    (i : Instruction) : m.perform dev.recorded (s, record) i =
      ⟨((m.perform dev s i).state, record ++ m.calls i), (m.perform dev s i).notes,
        (m.perform dev s i).value⟩ := by
  cases i with
  | readNumber =>
    simp only [perform, Device.recorded, Answer.noted, calls]
    cases (dev.requestNumber s).value with
    | error e => rfl
    | ok x => cases x <;> rfl
  | readCharacter | writeNumber | writeCharacter => rfl
  | _ =>
    simp only [calls, List.append_nil]
    rfl

/-- So it is with a step. -/
theorem step_recorded (m : Machine) (dev : Device σ ε) (s : σ) (record : List Call) :
    ∃ calls, m.Asks calls ∧
      m.step dev.recorded (s, record) =
        ⟨(m.step dev s).machine, ((m.step dev s).device, record ++ calls), (m.step dev s).notes,
          (m.step dev s).result⟩ := by
  -- All ways for a step to end before anything is executed ask nothing.
  have hnone {t : Turn (σ × List Call) ε} {u : Turn σ ε} (h : t = ⟨u.machine, (u.device, record),
      u.notes, u.result⟩) : ∃ calls, m.Asks calls ∧
        t = ⟨u.machine, (u.device, record ++ calls), u.notes, u.result⟩ := by
    refine ⟨[], .nothing, ?_⟩
    rw [List.append_nil]
    exact h
  cases hfinal : m.final with
  | some r =>
    rw [step_of_final _ _ hfinal, step_of_final _ _ hfinal]
    exact hnone rfl
  | none =>
    simp only [step, hfinal]
    split
    · exact hnone rfl
    · exact hnone rfl
    · next f hf =>
      unfold execute
      split
      · exact hnone rfl
      · split
        · exact hnone rfl
        · refine ⟨m.calls f.instruction, .fetched hf, ?_⟩
          rw [perform_recorded]
          dsimp only
          split <;> rfl

/-- So it is with any number of steps. -/
theorem steps_recorded (dev : Device σ ε) : ∀ (n : Nat) (m : Machine) (s : σ) (record : List Call),
    ∃ calls, (∀ c ∈ calls, c.Proper) ∧ m.steps dev.recorded n (s, record) =
      ((m.steps dev n s).1, ((m.steps dev n s).2.1, record ++ calls), (m.steps dev n s).2.2)
  | 0, m, s, record => by
    refine ⟨[], by simp, ?_⟩
    rw [List.append_nil]
    rfl
  | n + 1, m, s, record => by
    obtain ⟨calls, hasks, hstep⟩ := step_recorded m dev s record
    rw [Machine.steps, Machine.steps, hstep]
    cases hresult : (m.step dev s).result with
    | error e => exact ⟨calls, hasks.proper, rfl⟩
    | ok r =>
      obtain ⟨calls', hproper', hrest⟩ := steps_recorded dev n (m.step dev s).machine
        (m.step dev s).device (record ++ calls)
      refine ⟨calls ++ calls', ?_, ?_⟩
      · intro c hc
        exact (List.mem_append.mp hc).elim (hasks.proper c) (hproper' c)
      · dsimp only
        rw [hrest, List.append_assoc]

/-! ## 3. What is asked is proper -/

/-- **What a step asks is proper.** -/
theorem proper_step (m : Machine) (dev : Device σ ε) {x : σ × List Call}
    (h : ∀ c ∈ x.2, c.Proper) : ∀ c ∈ (m.step dev.recorded x).device.2, c.Proper := by
  obtain ⟨calls, hasks, hstep⟩ := step_recorded m dev x.1 x.2
  rw [hstep]
  intro c hc
  exact (List.mem_append.mp hc).elim (h c) (hasks.proper c)

/-- **What a run asks is proper.** -/
theorem proper_run (m : Machine) (dev : Device σ ε) (budget : Int) {x : σ × List Call}
    (h : ∀ c ∈ x.2, c.Proper) : ∀ c ∈ (m.run dev.recorded budget x).device.2, c.Proper :=
  run_invariant (P := fun _ (y : σ × List Call) => ∀ c ∈ y.2, c.Proper)
    (fun m _ hy => m.proper_step dev hy) budget h

/-! ## 4. What fails -/

/-- Changing the value of an answer does not make it fail. -/
theorem error_of_map {α β : Type} {a : Answer σ ε α} {f : α → β} {e : ε}
    (h : (a.map f).value = .error e) : a.value = .error e := by
  unfold Answer.map at h
  cases hv : a.value with
  | error e' =>
    rw [hv] at h
    cases h
    rfl
  | ok x =>
    rw [hv] at h
    cases h

/-- An instruction fails when its device does. -/
theorem raises_of_perform {i : Instruction} {e : ε}
    (h : (m.perform dev s i).value = .error e) : dev.Raises s e := by
  cases i with
  | readNumber =>
    simp only [perform] at h
    split at h
    · cases h
    · cases h
    · next hv =>
      cases h
      exact .requestNumber hv
  | readCharacter => exact .requestCharacter (error_of_map h)
  | writeNumber => exact .emitNumber _ (error_of_map h)
  | writeCharacter => exact .emitCharacter _ (error_of_map h)
  | _ => cases h

/-- **Only failures of the device leave a step of a sound machine.** -/
theorem Sound.raises_of_step (h : m.Sound) {f : StepFault ε}
    (hresult : (m.step dev s).result = .error f) : ∃ e, f = .device e ∧ dev.Raises s e := by
  obtain ⟨r, _, hrepeat⟩ | ⟨_, a, _, hcase⟩ := h.step_cases dev s
  · rw [hrepeat] at hresult
    cases hresult
  · generalize m.step dev s = t at hcase hresult
    cases hcase with
    | @fail f e _ _ _ hp =>
      cases hresult
      exact ⟨e, rfl, raises_of_perform hp⟩
    | _ => cases hresult

end Machine
end MinionComputer
