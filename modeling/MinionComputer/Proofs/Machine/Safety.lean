/-
# What cannot happen to a machine

A machine can be stepped and run, reset and loaded, its memory written, its device changed and its
breakpoints moved, in any order.  Through all of it the machine stays sound, it asks its device only
what is proper, and nothing but a failure of the device leaves a step, even if the step makes every
check there is.

* `Use`, `Use.performAll`: what can be done to a machine and its device, one thing after another;
* `Machine.Safe`: what holds then;
* `Use.safe_performAll`: it holds after whatever was done.
-/
import MinionComputer.Proofs.Machine.Checked

namespace MinionComputer

variable {σ ε ω : Type} {dev : Device σ ε}

/-! ## 1. Uses -/

/-- Something done to a machine and its device from outside. -/
inductive Use (σ ω : Type) where
  | step
  /-- A step with checks and an observer of its writes. -/
  | checkedStep (observer : Observer ω)
  | run (budget : Int)
  | reset
  | load (memory : Memory)
  /-- A write to the memory, which may be rejected. -/
  | write (address value : Argument)
  /-- A change to the device, such as more input for it. -/
  | change (f : σ → σ)
  | addBreakpoint (a : Int)
  | removeBreakpoint (a : Int)
  | clearBreakpoints

namespace Use

/-- Does it, with a device that keeps a record. -/
def perform (dev : Device σ ε) (u : Use σ ω) (m : Machine) (x : σ × List Call) :
    Machine × σ × List Call :=
  match u with
  | step =>
    let t := m.step dev.recorded x
    (t.machine, t.device)
  | checkedStep observer =>
    let t := m.checkedStep dev.recorded observer x
    (t.machine, t.device)
  | run budget =>
    let t := m.run dev.recorded budget x
    (t.machine, t.device)
  | reset => (m.reset, x)
  | load memory => (m.load memory, x)
  | write address value =>
    match m.memory.writeAt address value with
    | .ok memory => ({ m with memory := memory }, x)
    | .error _ => (m, x)
  | change f => (m, f x.1, x.2)
  | addBreakpoint a => (m.addBreakpoint a, x)
  | removeBreakpoint a => (m.removeBreakpoint a, x)
  | clearBreakpoints => (m.clearBreakpoints, x)

/-- Does one thing after another. -/
def performAll (dev : Device σ ε) (uses : List (Use σ ω)) (m : Machine) (x : σ × List Call) :
    Machine × σ × List Call :=
  uses.foldl (fun y u => u.perform dev y.1 y.2) (m, x)

end Use

/-! ## 2. Safety -/

/-- What holds of a machine, its device and the record of its calls whatever was done: the machine
is sound, all calls were proper, only a failure of the device leaves a step, only that and a
failure of the observer leaves a step with checks, and the checks make no difference. -/
structure Machine.Safe (dev : Device σ ε) (ω : Type) (m : Machine) (x : σ × List Call) : Prop where
  sound : m.Sound
  proper : ∀ c ∈ x.2, c.Proper
  step : ∀ f, (m.step dev x.1).result = .error f → ∃ e, f = .device e ∧ dev.Raises x.1 e
  checkedStep : ∀ (observer : Observer ω) f,
    (m.checkedStep dev observer x.1).result = .error f →
      (∃ e, f = .device e ∧ dev.Raises x.1 e) ∨
        ∃ e a old new memory, f = .observer e ∧ (observer a old new memory).2 = .error e
  silent : m.checkedStep dev (Observer.silent : Observer ω) x.1 = (m.step dev x.1).checked

/-- A sound machine whose calls were proper is safe. -/
theorem Machine.Sound.safe {m : Machine} {x : σ × List Call} (h : m.Sound)
    (hproper : ∀ c ∈ x.2, c.Proper) : m.Safe dev ω x where
  sound := h
  proper := hproper
  step := fun _ hresult => h.raises_of_step hresult
  checkedStep := fun _ _ hresult => h.escape_of_checkedStep hresult
  silent := Machine.checkedStep_silent dev m x.1

/-- **Nothing that can be done to a machine makes it unsound, or makes it ask what is not
proper.** -/
theorem Use.sound_perform (dev : Device σ ε) (u : Use σ ω) {m : Machine} {x : σ × List Call}
    (h : m.Sound) (hproper : ∀ c ∈ x.2, c.Proper) :
    (u.perform dev m x).1.Sound ∧ ∀ c ∈ (u.perform dev m x).2.2, c.Proper := by
  cases u with
  | step => exact ⟨h.step _ _, m.proper_step dev hproper⟩
  | checkedStep observer =>
    exact ⟨h.checkedStep _ observer _, m.proper_checkedStep dev observer hproper⟩
  | run budget => exact ⟨h.run _ budget _, m.proper_run dev budget hproper⟩
  | reset => exact ⟨Machine.sound_of_fresh rfl rfl, hproper⟩
  | load memory => exact ⟨Machine.sound_of_fresh rfl rfl, hproper⟩
  | write address value =>
    simp only [perform]
    cases m.memory.writeAt address value with
    | error f => exact ⟨h, hproper⟩
    | ok memory => exact ⟨h.of_eq rfl rfl, hproper⟩
  | change f => exact ⟨h, hproper⟩
  | addBreakpoint a => exact ⟨h.of_eq rfl rfl, hproper⟩
  | removeBreakpoint a => exact ⟨h.of_eq rfl rfl, hproper⟩
  | clearBreakpoints => exact ⟨h.of_eq rfl rfl, hproper⟩

/-- So it is with many things, one after another. -/
theorem Use.sound_performAll (dev : Device σ ε) : ∀ (uses : List (Use σ ω)) {m : Machine}
    {x : σ × List Call}, m.Sound → (∀ c ∈ x.2, c.Proper) →
      (performAll dev uses m x).1.Sound ∧ ∀ c ∈ (performAll dev uses m x).2.2, c.Proper
  | [], _, _, h, hproper => ⟨h, hproper⟩
  | u :: uses, _, _, h, hproper => by
    obtain ⟨h', hproper'⟩ := u.sound_perform dev h hproper
    exact sound_performAll dev uses h' hproper'

/-- **Whatever is done to a machine that started on a memory, it is safe.** -/
theorem Use.safe_performAll (dev : Device σ ε) (memory : Memory) (s : σ)
    (uses : List (Use σ ω)) :
    (performAll dev uses (.start memory) (s, [])).1.Safe dev ω
      (performAll dev uses (.start memory) (s, [])).2 := by
  have hstart : (Machine.start memory).Sound := Machine.sound_of_fresh rfl rfl
  have hnone : ∀ c ∈ ((s, []) : σ × List Call).2, c.Proper := by simp
  obtain ⟨hsound, hproper⟩ := sound_performAll dev uses hstart hnone
  exact hsound.safe hproper

end MinionComputer
