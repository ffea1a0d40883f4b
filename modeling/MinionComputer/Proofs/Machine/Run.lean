/-
# What a run can do

A run is a number of steps that go on, at most as many as its budget, and then one reason to stop:
the budget is used up, there is a breakpoint, or the next step does not go on.  What holds after
every step that goes on therefore holds where a run stops, and the step that does not go on is the
only one left to look at.

* `Machine.GoesOn`: steps that go on, one after another;
* `Machine.runEnd_run`: how a run ends;
* `Machine.run_invariant`: what every step keeps, a run keeps;
* `Machine.steps_run_bounds`: a run executes at most as many instructions as its budget.
-/
import MinionComputer.Proofs.Machine.Sound

namespace MinionComputer
namespace Machine

variable {σ ε : Type} {dev : Device σ ε} {m m' : Machine} {s s' : σ}

/-! ## 1. Steps that go on -/

/-- The step goes on: an instruction is executed. -/
def Continues (dev : Device σ ε) (m : Machine) (s : σ) : Prop :=
  ∃ a c, (m.step dev s).result = .ok ⟨.continued, a, c⟩

/-- The step found no input. -/
def Awaits (dev : Device σ ε) (m : Machine) (s : σ) : Prop :=
  ∃ a c, (m.step dev s).result = .ok ⟨.awaitingInput, a, c⟩

/-- A step that waits does not go on. -/
theorem Awaits.not_continues (h : Awaits dev m s) : ¬ Continues dev m s := by
  rintro ⟨a, c, hgo⟩
  obtain ⟨a', c', hwait⟩ := h
  rw [hgo] at hwait
  cases hwait

/-- A machine executes what it fetched, and the instruction makes `m'` of it. -/
structure Executes (dev : Device σ ε) (m : Machine) (s : σ) (f : Fetched) (m' : Machine) :
    Prop where
  final : m.final = none
  pc : m.registers.pc = Address.toInt f.address
  fetches : m.Fetches f.address f
  halts : f.halts = false
  next : m.next f < 100
  performs : (m.perform dev s f.instruction).value = .ok (some m')

/-- The step of a machine that executes an instruction. -/
theorem Executes.step_eq {f : Fetched} (h : Executes dev m s f m') :
    m.step dev s = ⟨m'.advance f (m.next f), (m.perform dev s f.instruction).state,
      (m.perform dev s f.instruction).notes, .ok ⟨.continued, f.address, f.cell⟩⟩ := by
  have hhalts : ¬ f.halts = true := Bool.eq_false_iff.mp h.halts
  rw [step_eq_execute dev s h.final h.pc h.fetches, execute, if_neg hhalts,
    if_neg (Nat.not_le_of_lt h.next)]
  simp only [h.performs]

theorem Executes.continues {f : Fetched} (h : Executes dev m s f m') : Continues dev m s :=
  ⟨f.address, f.cell, congrArg Turn.result h.step_eq⟩

/-- **A step of a sound machine that goes on executes an instruction.** -/
theorem Sound.exists_executes (h : m.Sound) (hc : Continues dev m s) :
    ∃ f m', Executes dev m s f m' := by
  obtain ⟨a, c, hr⟩ := hc
  obtain ⟨r, hfinal, hrepeat⟩ | ⟨hfinal, b, hpc, hcase⟩ := h.step_cases dev s
  · rw [hrepeat] at hr
    cases hr
    exact absurd (h.terminal _ hfinal) Bool.false_ne_true
  · generalize m.step dev s = t at hcase hr
    cases hcase with
    | @go f m' hf hh hn hp =>
      cases hf.address
      exact ⟨f, m', hfinal, hpc, hf, hh, hn, hp⟩
    | _ => cases hr

/-- From `m` and `s`, that many steps go on and lead to `m'` and `s'`. -/
inductive GoesOn (dev : Device σ ε) : Nat → Machine → σ → Machine → σ → Prop
  | refl (m : Machine) (s : σ) : GoesOn dev 0 m s m s
  | head {n : Nat} {m m' : Machine} {s s' : σ} (h : Continues dev m s)
      (rest : GoesOn dev n (m.step dev s).machine (m.step dev s).device m' s') :
      GoesOn dev (n + 1) m s m' s'

/-- One more step at the end. -/
theorem GoesOn.tail {n : Nat} (h : GoesOn dev n m s m' s') (hc : Continues dev m' s') :
    GoesOn dev (n + 1) m s (m'.step dev s').machine (m'.step dev s').device := by
  induction h with
  | refl m s => exact .head hc (.refl _ _)
  | head h _ ih => exact .head h (ih hc)

/-- What steps that go on keep, a row of them keeps. -/
theorem GoesOn.invariant {P : Machine → σ → Prop} {n : Nat}
    (hstep : ∀ m s, P m s → Continues dev m s → P (m.step dev s).machine (m.step dev s).device)
    (h : GoesOn dev n m s m' s') (hp : P m s) : P m' s' := by
  induction h with
  | refl _ _ => exact hp
  | head h _ ih => exact ih (hstep _ _ hp h)

theorem Sound.goesOn {n : Nat} (h : m.Sound) (hgo : GoesOn dev n m s m' s') : m'.Sound :=
  hgo.invariant (P := fun m _ => m.Sound) (fun _ _ hm _ => hm.step dev _) h

/-- **Taking steps that go on one by one gives their results**, and none of them is a fault. -/
theorem results_of_goesOn {n : Nat} (h : GoesOn dev n m s m' s') :
    ∃ notes results, m.steps dev n s = (m', s', notes, results, none) ∧ results.length = n ∧
      ∀ x ∈ results, x.1.outcome = .continued := by
  induction h with
  | refl m s => exact ⟨[], [], rfl, rfl, by simp⟩
  | @head n m m' s s' h _ ih =>
    obtain ⟨a, c, hr⟩ := h
    obtain ⟨notes, results, heq, hlength, hall⟩ := ih
    refine ⟨(m.step dev s).notes ++ notes,
      (⟨.continued, a, c⟩, (m.step dev s).machine) :: results, ?_, by simp [hlength], ?_⟩
    · simp only [Machine.steps, hr, heq]
    · intro x hx
      rcases List.mem_cons.mp hx with rfl | hx
      · rfl
      · exact hall x hx

/-! ## 2. The end of a run -/

/-- At an address, the cell there can be told. -/
theorem here_eq {a : Address} (hpc : m.registers.pc = Address.toInt a) (o : Outcome) :
    (m.here o : Except (StepFault ε) StepResult) = .ok ⟨o, a, m.memory.read a⟩ := by
  simp only [here, hpc, Address.ofInt?_toInt]

/-- How a run with `left` steps left ends that stands at `m` and `s`; `moved` tells that it has
taken a step. -/
inductive RunEnd (dev : Device σ ε) (left : Nat) (moved : Prop) (m : Machine) (s : σ) :
    Turn σ ε → Prop
  /-- The budget is used up. -/
  | timeout {t : Turn σ ε} (hleft : left = 0) (hm : t.machine = m) (hs : t.device = s)
      (hr : t.result = m.here .timeout) : RunEnd dev left moved m s t
  /-- There is a breakpoint, and not at the very beginning. -/
  | breakpoint {t : Turn σ ε} (hleft : 0 < left) (hmoved : moved) (hb : m.atBreakpoint = true)
      (hm : t.machine = m) (hs : t.device = s) (hr : t.result = m.here .breakpoint) :
      RunEnd dev left moved m s t
  /-- The next step does not go on. -/
  | stop {t : Turn σ ε} (hleft : 0 < left) (hstop : ¬ Continues dev m s)
      (hm : t.machine = (m.step dev s).machine) (hs : t.device = (m.step dev s).device)
      (hr : t.result = (m.step dev s).result) : RunEnd dev left moved m s t

/-- Where the rest of a run ends. -/
theorem runEnd_runFrom (dev : Device σ ε) (budget : Int) : ∀ (left : Nat) (first : Bool)
    (notes : Array Note) (m : Machine) (s : σ), ∃ n m' s', GoesOn dev n m s m' s' ∧ n ≤ left ∧
      RunEnd dev (left - n) (first = false ∨ 0 < n) m' s' (runFrom dev budget left first notes m s)
  | 0, first, notes, m, s =>
    ⟨0, m, s, .refl m s, Nat.le_refl 0, .timeout rfl rfl rfl rfl⟩
  | left + 1, first, notes, m, s => by
    rw [runFrom]
    split
    · next hb =>
      rw [Bool.and_eq_true, Bool.not_eq_true'] at hb
      exact ⟨0, m, s, .refl m s, Nat.zero_le _,
        .breakpoint (Nat.succ_pos left) (.inl hb.1) hb.2 rfl rfl rfl⟩
    · dsimp only
      split
      · next a c hr =>
        have hc : Continues dev m s := ⟨a, c, hr⟩
        obtain ⟨n, m', s', hgo, hn, hend⟩ := runEnd_runFrom dev budget left false
          (notes ++ (m.step dev s).notes.toArray) (m.step dev s).machine (m.step dev s).device
        refine ⟨n + 1, m', s', .head hc hgo, Nat.succ_le_succ hn, ?_⟩
        rw [Nat.add_sub_add_right]
        have hmoved : (false = false ∨ 0 < n) ↔ (first = false ∨ 0 < n + 1) :=
          iff_of_true (.inl rfl) (.inr (Nat.succ_pos n))
        rw [propext hmoved] at hend
        exact hend
      · next hr =>
        refine ⟨0, m, s, .refl m s, Nat.zero_le _, .stop (Nat.succ_pos left) ?_ rfl rfl rfl⟩
        rintro ⟨a, c, hc⟩
        exact hr a c hc

/-- **How a run ends.**  It takes steps that go on, at most as many as its budget, and then there
is one reason to stop. -/
theorem runEnd_run (dev : Device σ ε) (budget : Int) (m : Machine) (s : σ) :
    ∃ n m' s', GoesOn dev n m s m' s' ∧ n ≤ budget.toNat ∧
      RunEnd dev (budget.toNat - n) (0 < n) m' s' (m.run dev budget s) := by
  obtain ⟨n, m', s', hgo, hn, hend⟩ := runEnd_runFrom dev budget budget.toNat true #[] m s
  have hmoved : (true = false ∨ 0 < n) ↔ 0 < n := by simp
  rw [propext hmoved] at hend
  exact ⟨n, m', s', hgo, hn, hend⟩

/-- What every step keeps, the rest of a run keeps. -/
theorem runFrom_invariant {P : Machine → σ → Prop}
    (hstep : ∀ m s, P m s → P (m.step dev s).machine (m.step dev s).device) (budget : Int)
    (left : Nat) (first : Bool) (notes : Array Note) (h : P m s) :
    P (runFrom dev budget left first notes m s).machine
      (runFrom dev budget left first notes m s).device := by
  obtain ⟨n, m', s', hgo, _, hend⟩ := runEnd_runFrom dev budget left first notes m s
  have h' : P m' s' := hgo.invariant (fun m s hp _ => hstep m s hp) h
  cases hend with
  | timeout _ hm hs _ => exact hm.symm ▸ hs.symm ▸ h'
  | breakpoint _ _ _ hm hs _ => exact hm.symm ▸ hs.symm ▸ h'
  | stop _ _ hm hs _ => exact hm.symm ▸ hs.symm ▸ hstep m' s' h'

/-- **What every step keeps, a run keeps.** -/
theorem run_invariant {P : Machine → σ → Prop}
    (hstep : ∀ m s, P m s → P (m.step dev s).machine (m.step dev s).device) (budget : Int)
    (h : P m s) : P (m.run dev budget s).machine (m.run dev budget s).device :=
  runFrom_invariant hstep budget budget.toNat true #[] h

/-- A run keeps a machine sound. -/
theorem Sound.run (h : m.Sound) (dev : Device σ ε) (budget : Int) (s : σ) :
    (m.run dev budget s).machine.Sound :=
  run_invariant (P := fun m _ => m.Sound) (fun _ s hm => hm.step dev s) budget h

/-! ## 3. Counting instructions -/

/-- A step that goes on counts one more instruction. -/
theorem steps_of_continues (h : m.Sound) (hc : Continues dev m s) :
    (m.step dev s).machine.registers.steps = m.registers.steps + 1 := by
  obtain ⟨f, m', hexecutes⟩ := h.exists_executes hc
  rw [hexecutes.step_eq, registers_advance, (effect_of_perform hexecutes.performs).steps]

/-- A step that does not go on leaves the registers, the memory and the mode as they are. -/
theorem registers_of_not_continues (h : m.Sound) (hstop : ¬ Continues dev m s) :
    (m.step dev s).machine.registers = m.registers ∧
      (m.step dev s).machine.memory = m.memory ∧
      (m.step dev s).machine.extended = m.extended := by
  unfold Continues at hstop
  obtain ⟨r, _, hrepeat⟩ | ⟨_, a, _, hcase⟩ := h.step_cases dev s
  · rw [hrepeat]
    exact ⟨rfl, rfl, rfl⟩
  · generalize m.step dev s = t at hcase hstop ⊢
    cases hcase with
    | halt _ _ => exact ⟨registers_traced _ _ _, memory_traced _ _ _, extended_traced _ _ _⟩
    | go _ _ _ _ => exact absurd ⟨_, _, rfl⟩ hstop
    | _ => exact ⟨rfl, rfl, rfl⟩

/-- A row of steps that go on counts as many instructions. -/
theorem steps_of_goesOn {n : Nat} (h : m.Sound) (hgo : GoesOn dev n m s m' s') :
    m'.registers.steps = m.registers.steps + n := by
  induction hgo with
  | refl _ _ => simp
  | head hc _ ih =>
    rw [ih (h.step dev _), steps_of_continues h hc]
    omega

/-- **A run executes at most as many instructions as its budget**, and takes none back. -/
theorem steps_run_bounds (h : m.Sound) (dev : Device σ ε) (budget : Int) (s : σ) :
    m.registers.steps ≤ (m.run dev budget s).machine.registers.steps ∧
      (m.run dev budget s).machine.registers.steps ≤ m.registers.steps + max budget 0 := by
  obtain ⟨n, m', s', hgo, hn, hend⟩ := runEnd_run dev budget m s
  have hm' := h.goesOn hgo
  have hcount := steps_of_goesOn h hgo
  have hlast : (m.run dev budget s).machine.registers = m'.registers := by
    cases hend with
    | timeout _ hm _ _ => rw [hm]
    | breakpoint _ _ _ hm _ _ => rw [hm]
    | stop _ hstop hm _ _ =>
      rw [hm]
      exact (registers_of_not_continues hm' hstop).1
  rw [hlast, hcount]
  omega

end Machine
end MinionComputer
