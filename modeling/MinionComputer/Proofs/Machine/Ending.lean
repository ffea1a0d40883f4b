/-
# All or nothing, and nothing after the end

A step executes an instruction or changes nothing that the program could notice.  One that ends the
run only notes its result; one that waits for input, or whose device fails, leaves no mark on the
machine at all, so it can be tried again.  And once the run is over it stays over: whatever is done
short of a new beginning, every step and every run gives the same result and asks the device
nothing.

* `Machine.Atomic`: what a step may change that executes no instruction;
* `Machine.Over`: a run that is over;
* `Act.over_performAll`: it stays over;
* `Act.atomic_and_over`: both, after any history.
-/
import MinionComputer.Proofs.Machine.History
import MinionComputer.Proofs.Machine.Slicing

namespace MinionComputer
namespace Machine

variable {σ ε ω : Type} {dev : Device σ ε} {m : Machine} {s : σ} {r : StepResult}

/-! ## 1. One step -/

/-- What the step `t` of `m` may change if it executes no instruction. -/
structure Atomic (m : Machine) (t : Turn σ ε) : Prop where
  /-- The registers, the mode and all cells are as before. -/
  unchanged : (∀ a c, t.result ≠ .ok ⟨.continued, a, c⟩) →
    t.machine.registers = m.registers ∧ t.machine.extended = m.extended ∧
      t.machine.memory = m.memory
  /-- If it waits or fails, the machine is as before altogether, and the run is not over. -/
  retriable : ((∃ a c, t.result = .ok ⟨.awaitingInput, a, c⟩) ∨ ∃ e, t.result = .error e) →
    t.machine = m ∧ m.final = none

/-- **A step of a sound machine is all or nothing.** -/
theorem Sound.atomic_step (h : m.Sound) (dev : Device σ ε) (s : σ) :
    m.Atomic (m.step dev s) := by
  constructor
  · intro hstop
    have hnot : ¬ Continues dev m s := by
      rintro ⟨a, c, hr⟩
      exact hstop a c hr
    obtain ⟨hregisters, hmemory, hextended⟩ := registers_of_not_continues h hnot
    exact ⟨hregisters, hextended, hmemory⟩
  · intro hresult
    obtain ⟨r, hfinal, hrepeat⟩ | ⟨hfinal, a, _, hcase⟩ := h.step_cases dev s
    · -- the result that ended a run is neither of the two
      have hterminal := h.terminal r hfinal
      rw [hrepeat] at hresult
      rcases hresult with ⟨a, c, hr⟩ | ⟨e, hr⟩
      · cases hr
        exact absurd hterminal Bool.false_ne_true
      · cases hr
    · refine ⟨?_, hfinal⟩
      generalize m.step dev s = t at hcase hresult ⊢
      cases hcase with
      | fail _ _ _ _ => rfl
      | wait _ _ _ _ => rfl
      | _ =>
        rcases hresult with ⟨a, c, hr⟩ | ⟨e, hr⟩
        · cases hr
        · cases hr

/-! ## 2. The end of a run -/

/-- The run is over with `r`: every step, and every run with a budget, gives `r` again with no
notes, and leaves the machine and the device as they are. -/
structure Over (m : Machine) (r : StepResult) : Prop where
  final : m.final = some r
  step : ∀ {τ δ : Type} (dev : Device τ δ) (s : τ), m.step dev s = ⟨m, s, [], .ok r⟩
  run : ∀ {τ δ : Type} (dev : Device τ δ) (s : τ) (budget : Int), 1 ≤ budget →
    m.run dev budget s = ⟨m, s, [], .ok r⟩

/-- A run that ended with a terminal result is over. -/
theorem over_of_final (hfinal : m.final = some r) (hr : r.outcome.isTerminal = true) :
    m.Over r where
  final := hfinal
  step := by
    intro τ δ dev s
    exact step_of_final dev s hfinal
  run := by
    intro τ δ dev s budget hbudget
    obtain ⟨left, hleft⟩ : ∃ left, budget.toNat = left + 1 := ⟨budget.toNat - 1, by omega⟩
    obtain ⟨outcome, a, c⟩ := r
    rw [run, hleft, runFrom, step_of_final dev s hfinal]
    cases outcome with
    | halted | invalidInstruction | reachedEnd => rfl
    | _ => exact absurd hr Bool.false_ne_true

/-- Where a run stops by itself, the result is not a terminal one. -/
theorem here_ne_of_isTerminal (hr : r.outcome.isTerminal = true) {o : Outcome}
    (ho : o.isTerminal = false) : (m.here o : Except (StepFault ε) StepResult) ≠ .ok r := by
  intro heq
  unfold here at heq
  split at heq
  · cases heq
  · cases heq
    exact Bool.noConfusion (ho.symm.trans hr)

/-- A step that gives a terminal result ends the run with it. -/
theorem Sound.final_of_step (h : m.Sound) (hresult : (m.step dev s).result = .ok r)
    (hr : r.outcome.isTerminal = true) : (m.step dev s).machine.final = some r := by
  obtain ⟨r', hfinal, hrepeat⟩ | ⟨_, a, _, hcase⟩ := h.step_cases dev s
  · rw [hrepeat] at hresult ⊢
    cases hresult
    exact hfinal
  · generalize m.step dev s = t at hcase hresult ⊢
    cases hcase with
    | fail _ _ _ _ => cases hresult
    | wait _ _ _ _ | go _ _ _ _ =>
      cases hresult
      exact absurd hr Bool.false_ne_true
    | _ =>
      cases hresult
      rfl

/-- So does a run. -/
theorem Sound.final_of_run (h : m.Sound) {budget : Int}
    (hresult : (m.run dev budget s).result = .ok r) (hr : r.outcome.isTerminal = true) :
    (m.run dev budget s).machine.final = some r := by
  obtain ⟨n, m', s', hgo, _, hend⟩ := runEnd_run dev budget m s
  cases hend with
  | timeout _ _ _ hend =>
    rw [hend] at hresult
    exact absurd hresult (here_ne_of_isTerminal hr rfl)
  | breakpoint _ _ _ _ _ hend =>
    rw [hend] at hresult
    exact absurd hresult (here_ne_of_isTerminal hr rfl)
  | stop _ _ hm _ hend =>
    rw [hend] at hresult
    rw [hm]
    exact (h.goesOn hgo).final_of_step hresult hr

/-- A step with checks does nothing to a machine that is over. -/
theorem checkedStep_of_final (dev : Device σ ε) (observer : Observer ω) (s : σ)
    (hfinal : m.final = some r) : m.checkedStep dev observer s = ⟨m, s, [], .ok r⟩ := by
  simp only [checkedStep, hfinal]

end Machine

/-! ## 3. Histories -/

namespace Act

open Machine

variable {σ ε ω : Type} {dev : Device σ ε} {m : Machine} {r : StepResult}

/-- In the course of a run that is over, nothing is asked of the device. -/
theorem kept_final (dev : Device σ ε) (ω : Type) (r : StepResult) (record : List Call) :
    Kept dev ω fun m x => m.final = some r ∧ x.2 = record where
  step := by
    rintro m x ⟨hfinal, hrecord⟩
    rw [step_of_final _ _ hfinal]
    exact ⟨hfinal, hrecord⟩
  checkedStep := by
    rintro m observer x ⟨hfinal, hrecord⟩
    rw [checkedStep_of_final _ _ _ hfinal]
    exact ⟨hfinal, hrecord⟩
  untouched := by
    rintro m m' s s' record' hm ⟨hfinal, hrecord⟩
    exact ⟨hm.final.trans hfinal, hrecord⟩

/-- **A run that is over stays over until the next beginning**, and asks its device nothing. -/
theorem over_performAll (h : m.Over r) (hr : r.outcome.isTerminal = true)
    (x : σ × List Call) {acts : List (Act σ ω)} (hacts : ∀ a ∈ acts, a.begins = false) :
    (performAll dev acts m x).1.Over r ∧ (performAll dev acts m x).2.2 = x.2 := by
  obtain ⟨hfinal, hrecord⟩ := performAll_keeps (kept_final dev ω r x.2) hacts ⟨h.final, rfl⟩
  exact ⟨over_of_final hfinal hr, hrecord⟩

/-- **A step is all or nothing, and the end of a run is final.**  After any history, a step with any
device is atomic.  If a step or a run then gives a terminal result, the run is over with it after
whatever is done without a new beginning, and the device has not been asked anything since. -/
theorem atomic_and_over (dev : Device σ ε) (memory : Memory) (s : σ) (acts : List (Act σ ω)) :
    let x := performAll dev acts (.start memory) (s, [])
    (∀ {τ δ : Type} (dev' : Device τ δ) (s' : τ), x.1.Atomic (x.1.step dev' s')) ∧
    ∀ (t : Turn (σ × List Call) ε) (r : StepResult),
      (t = x.1.step dev.recorded x.2 ∨ ∃ budget, t = x.1.run dev.recorded budget x.2) →
      t.result = .ok r → r.outcome.isTerminal = true →
      ∀ later : List (Act σ ω), (∀ a ∈ later, a.begins = false) →
        let y := performAll dev later t.machine t.device
        y.1.Over r ∧ y.2.2 = t.device.2 := by
  have hsound : (performAll dev acts (.start memory) (s, [])).1.Sound :=
    sound_performAll dev acts (s, []) (sound_of_fresh rfl rfl)
  constructor
  · intro τ δ dev' s'
    exact hsound.atomic_step dev' s'
  · intro t r ht hresult hr later hlater
    have hfinal : t.machine.final = some r := by
      rcases ht with rfl | ⟨budget, rfl⟩
      · exact hsound.final_of_step hresult hr
      · exact hsound.final_of_run hresult hr
    exact over_performAll (over_of_final hfinal hr) hr t.device hlater

/-- A program that has read a number halts at address 1, and stays halted although the halt is then
overwritten and more input is queued. -/
theorem over_of_overwritten_halt :
    let x := performAll Scripted.device [(.use .step : Act Scripted Empty)]
      (.start (.ofList [901, 0])) (.ofInputs [7] [] #[], [])
    let t := x.1.step Scripted.device.recorded x.2
    let y := performAll Scripted.device
      [(.rewrite fun m => m.write 1 901 : Act Scripted Empty),
        .use (.change fun q => q.pushNumber (some 8)), .use (.run 5)] t.machine t.device
    y.1.Over ⟨.halted, 1, 0⟩ ∧ y.2.2 = [.requestNumber] := by
  have hall := atomic_and_over Scripted.device (.ofList [901, 0]) (.ofInputs [7] [] #[])
    [(.use .step : Act Scripted Empty)]
  refine hall.2 _ ⟨.halted, 1, 0⟩ (.inl rfl) ?_ rfl _ ?_
  · rfl
  · simp [begins]

end Act
end MinionComputer
