/-
# What holds of a machine however it is used

A machine that starts on a memory stays sound: the accumulator has at most three digits, the
program counter is an address, a negative accumulator has its flag, and a run that is over ended
where the machine stands.  Steps keep this, and so does all that can be done to a machine from
outside.

* `Machine.Sound`: the invariant;
* `Machine.Sound.step`: a step keeps it, whatever the device answers.
-/
import MinionComputer.Proofs.Machine.Step
import MinionComputer.Proofs.Device.Recorded

namespace MinionComputer
namespace Machine

variable {σ ε : Type} {dev : Device σ ε} {m m' : Machine} {s : σ}

/-! ## 1. The invariant -/

/-- What holds of a machine however it is used. -/
structure Sound (m : Machine) : Prop where
  acc : -999 ≤ m.registers.acc ∧ m.registers.acc ≤ 999
  pc : 0 ≤ m.registers.pc ∧ m.registers.pc ≤ 99
  cells : ∀ a, 0 ≤ Cell.toInt (m.memory.read a) ∧ Cell.toInt (m.memory.read a) ≤ 999
  flag : m.registers.acc < 0 → m.registers.negative = true
  final : ∀ r, m.final = some r → Address.toInt r.address = m.registers.pc
  terminal : ∀ r, m.final = some r → r.outcome.isTerminal = true

/-- The program counter of a sound machine is an address. -/
theorem Sound.exists_address (h : m.Sound) : ∃ a : Address, m.registers.pc = Address.toInt a := by
  obtain ⟨a, ha⟩ := Address.exists_toInt_iff.mpr h.pc
  exact ⟨a, ha.symm⟩

/-- A step of a sound machine gives the result that ended the run again, or it is one of the cases
of a step. -/
theorem Sound.step_cases (h : m.Sound) (dev : Device σ ε) (s : σ) :
    (∃ r, m.final = some r ∧ m.step dev s = ⟨m, s, [], .ok r⟩) ∨
      (m.final = none ∧
        ∃ a, m.registers.pc = Address.toInt a ∧ StepCase dev m s a (m.step dev s)) := by
  cases hfinal : m.final with
  | some r => exact .inl ⟨r, rfl, step_of_final dev s hfinal⟩
  | none =>
    obtain ⟨a, hpc⟩ := h.exists_address
    exact .inr ⟨rfl, a, hpc, stepCase_step dev s hfinal hpc⟩

/-- A machine is sound at the beginning of a run. -/
theorem sound_of_fresh (hregisters : m.registers = {}) (hfinal : m.final = none) : m.Sound where
  acc := by
    rw [hregisters]
    decide
  pc := by
    rw [hregisters]
    decide
  cells := fun a => Cell.toInt_bounds _
  flag := by
    rw [hregisters]
    decide
  final := by
    rw [hfinal]
    rintro r ⟨⟩
  terminal := by
    rw [hfinal]
    rintro r ⟨⟩

/-- What does not touch the registers and the final result keeps a machine sound. -/
theorem Sound.of_eq (h : m.Sound) (hregisters : m'.registers = m.registers)
    (hfinal : m'.final = m.final) : m'.Sound where
  acc := hregisters ▸ h.acc
  pc := hregisters ▸ h.pc
  cells := fun a => Cell.toInt_bounds _
  flag := hregisters ▸ h.flag
  final := by
    rw [hregisters, hfinal]
    exact h.final
  terminal := hfinal ▸ h.terminal

/-! ## 2. One step -/

/-- Ending a run where the machine stands keeps it sound. -/
theorem Sound.finish (h : m.Sound) {a : Address} (hpc : m.registers.pc = Address.toInt a)
    {o : Outcome} (ho : o.isTerminal = true) (notes : List Note) (c : Cell) :
    (m.finish s notes ⟨o, a, c⟩ : Turn σ ε).machine.Sound where
  acc := h.acc
  pc := h.pc
  cells := fun a => Cell.toInt_bounds _
  flag := h.flag
  final := by
    rintro r ⟨⟩
    exact hpc.symm
  terminal := by
    rintro r ⟨⟩
    exact ho

/-- An effect keeps a machine sound. -/
theorem Sound.effect (h : m.Sound) (he : Effect m m') : m'.Sound := by
  cases he with
  | none => exact h
  | stored memory => exact h.of_eq rfl rfl
  | loaded hacc hflag =>
    exact ⟨hacc, h.pc, fun a => Cell.toInt_bounds _, hflag, h.final, h.terminal⟩

/-- Going on to an address keeps a machine sound. -/
theorem Sound.advance (h : m.Sound) (hfinal : m.final = none) (f : Fetched) {n : Nat}
    (hn : n < 100) : (m.advance f n).Sound where
  acc := by
    rw [registers_advance]
    exact h.acc
  pc := by
    rw [registers_advance]
    have : (0 : Int) ≤ (n : Int) ∧ (n : Int) ≤ 99 := by omega
    exact this
  cells := fun a => Cell.toInt_bounds _
  flag := by
    rw [registers_advance]
    exact h.flag
  final := by
    rw [final_advance, hfinal]
    rintro r ⟨⟩
  terminal := by
    rw [final_advance, hfinal]
    rintro r ⟨⟩

/-- **A step keeps a machine sound, whatever its device answers.** -/
theorem Sound.step (h : m.Sound) (dev : Device σ ε) (s : σ) : (m.step dev s).machine.Sound := by
  obtain ⟨r, hfinal, hrepeat⟩ | ⟨hfinal, a, hpc, hcase⟩ := h.step_cases dev s
  · rw [hrepeat]
    exact h
  · generalize m.step dev s = t at hcase ⊢
    cases hcase with
    | invalid _ => exact h.finish hpc rfl _ _
    | @halt f hf _ =>
      have htraced := h.of_eq (registers_traced f.address f.cell f.instruction)
        (final_traced f.address f.cell f.instruction)
      refine htraced.finish ?_ rfl _ _
      rw [registers_traced, hf.address, hpc]
    | @reachEnd f hf _ _ => exact h.finish (hf.address ▸ hpc) rfl _ _
    | fail _ _ _ _ => exact h
    | wait _ _ _ _ => exact h
    | @go f m' _ _ hn hp =>
      have heffect : Effect m m' := effect_of_perform hp
      have hfinal' : m'.final = none := heffect.final.trans hfinal
      exact (h.effect heffect).advance hfinal' f hn

end Machine
end MinionComputer
