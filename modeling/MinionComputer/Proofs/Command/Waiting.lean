/-
# Runs that wait for input

A run that waits is several runs on one budget.  Seen from outside, that is a row of steps: those
that go on count against the budget, those that only found no input yet do not, and after each of
these something arrives.  The row ends for one of three reasons: the budget is used up, a step
neither goes on nor waits, or nothing more arrives.  Since every step is determined by the one
before, two rows from the same place go the same way, and so the row that leads to a halt is the
one that is taken, if the budget reaches so far.

* `Lasts`: a row of steps that go on or wait;
* `DriveEnd`, `driveEnd_drive`: how a run that waits ends;
* `Lasts.result_of_halts`: a row that leads to a halt is taken;
* `drive_halts_iff`: when a run that waits comes to a halt.
-/
import MinionComputer.Command.Execution
import MinionComputer.Proofs.Outcome
import MinionComputer.Proofs.Machine.Run

namespace MinionComputer

open Machine (Awaits Continues GoesOn)

variable {σ ε α : Type} {dev : Device σ ε} {receive : α → σ → σ} {polling : Bool}
  {arrivals later : List α} {m m' : Machine} {s s' : σ} {n : Nat}

/-! ## 1. Steps that wait -/

theorem isWaiting_iff {r : Except (StepFault ε) StepResult} :
    isWaiting r = true ↔ ∃ a c, r = .ok ⟨.awaitingInput, a, c⟩ := by
  cases r with
  | error f => simp [isWaiting]
  | ok r =>
    obtain ⟨o, a, c⟩ := r
    simp [isWaiting]

/-- From `m` and `s`, with `arrivals` to come, `n` steps go on and lead to `m'` and `s'`, where
`later` is still to come.  If it is `polling`, there may be steps between them that find no input;
after each the next of the arrivals is received. -/
inductive Lasts (dev : Device σ ε) (receive : α → σ → σ) (polling : Bool) :
    Nat → List α → Machine → σ → List α → Machine → σ → Prop
  | refl (arrivals : List α) (m : Machine) (s : σ) :
      Lasts dev receive polling 0 arrivals m s arrivals m s
  | go {n : Nat} {arrivals later : List α} {m m' : Machine} {s s' : σ} (hgo : Continues dev m s)
      (rest : Lasts dev receive polling n arrivals (m.step dev s).machine (m.step dev s).device
        later m' s') :
      Lasts dev receive polling (n + 1) arrivals m s later m' s'
  | wait {n : Nat} {a : α} {arrivals later : List α} {m m' : Machine} {s s' : σ}
      (hpolling : polling = true) (hwait : Awaits dev m s)
      (rest : Lasts dev receive polling n arrivals (m.step dev s).machine
        (receive a (m.step dev s).device) later m' s') :
      Lasts dev receive polling n (a :: arrivals) m s later m' s'

/-- Steps that go on come before the others. -/
theorem Lasts.after_goesOn {k : Nat} {m₁ : Machine} {s₁ : σ} (hgo : GoesOn dev k m s m₁ s₁)
    (rest : Lasts dev receive polling n arrivals m₁ s₁ later m' s') :
    Lasts dev receive polling (k + n) arrivals m s later m' s' := by
  induction hgo with
  | refl _ _ =>
    rw [Nat.zero_add]
    exact rest
  | @head k _ _ _ _ hc _ ih =>
    rw [Nat.add_right_comm]
    exact .go hc (ih rest)

/-- Without polling, such a row only consists of steps that go on. -/
theorem Lasts.goesOn (h : Lasts dev receive false n arrivals m s later m' s') :
    GoesOn dev n m s m' s' := by
  generalize hpolling : false = polling at h
  induction h with
  | refl _ _ _ => exact .refl _ _
  | go hgo _ ih => exact .head hgo ih
  | wait h _ _ _ => exact absurd (hpolling.trans h) Bool.false_ne_true

/-- What every step keeps and every arrival keeps, the row keeps. -/
theorem Lasts.invariant {P : Machine → σ → Prop}
    (hstep : ∀ m s, P m s → P (m.step dev s).machine (m.step dev s).device)
    (hreceive : ∀ a m s, P m s → P m (receive a s))
    (h : Lasts dev receive polling n arrivals m s later m' s') (hp : P m s) : P m' s' := by
  induction h with
  | refl _ _ _ => exact hp
  | go _ _ ih => exact ih (hstep _ _ hp)
  | wait _ _ _ ih => exact ih (hreceive _ _ _ (hstep _ _ hp))

theorem Machine.Sound.lasts (h : m.Sound)
    (hlasts : Lasts dev receive polling n arrivals m s later m' s') : m'.Sound :=
  hlasts.invariant (P := fun m _ => m.Sound) (fun _ _ hm => hm.step dev _) (fun _ _ _ hm => hm) h

/-! ## 2. The end of a run that waits -/

/-- How a run that waits ends with `left` steps left that stands at `m` and `s`, with `arrivals`
still to come. -/
inductive DriveEnd (dev : Device σ ε) (polling : Bool) (left : Nat) (arrivals : List α) (m : Machine)
    (s : σ) (d : Drive σ ε) : Prop
  /-- The budget is used up. -/
  | timeout (hleft : left = 0) (hm : d.machine = m) (hs : d.device = s)
      (hr : d.result = (m.here .timeout).mapError .step)
  /-- The next step does not go on, and there is nothing to wait for. -/
  | stop (hleft : 0 < left) (hgo : ¬ Continues dev m s) (hwait : ¬ (polling = true ∧ Awaits dev m s))
      (hm : d.machine = (m.step dev s).machine) (hs : d.device = (m.step dev s).device)
      (hr : d.result = (m.step dev s).result.mapError .step)
  /-- The next step waits, and nothing more arrives. -/
  | starved (hleft : 0 < left) (hpolling : polling = true) (hwait : Awaits dev m s)
      (hnone : arrivals = []) (hm : d.machine = (m.step dev s).machine)
      (hs : d.device = (m.step dev s).device) (hr : d.result = .error .starved)

/-- Only the machine, the device and the result matter to how a run ended. -/
theorem DriveEnd.imp {left : Nat} {d d' : Drive σ ε} (h : DriveEnd dev polling left arrivals m s d)
    (hm : d'.machine = d.machine) (hs : d'.device = d.device) (hr : d'.result = d.result) :
    DriveEnd dev polling left arrivals m s d' := by
  cases h with
  | timeout hleft hm' hs' hr' => exact .timeout hleft (hm.trans hm') (hs.trans hs') (hr.trans hr')
  | stop hleft hgo hwait hm' hs' hr' =>
    exact .stop hleft hgo hwait (hm.trans hm') (hs.trans hs') (hr.trans hr')
  | starved hleft hpolling hwait hnone hm' hs' hr' =>
    exact .starved hleft hpolling hwait hnone (hm.trans hm') (hs.trans hs') (hr.trans hr')

theorem drive_of_done {maxSteps : Int} {t : Turn σ ε}
    (ht : m.run dev (maxSteps - m.registers.steps) s = t)
    (hdone : (polling && isWaiting t.result) = false) :
    drive dev receive maxSteps polling arrivals m s = .ofTurn t := by
  unfold drive
  simp [ht, hdone]

theorem drive_of_starved {maxSteps : Int} {t : Turn σ ε}
    (ht : m.run dev (maxSteps - m.registers.steps) s = t)
    (hwaiting : (polling && isWaiting t.result) = true) :
    drive dev receive maxSteps polling [] m s =
      ⟨t.machine, t.device, t.notes, 1, .error .starved⟩ := by
  unfold drive
  simp [ht, hwaiting]

theorem drive_of_waiting {maxSteps : Int} {t : Turn σ ε} {a : α}
    (ht : m.run dev (maxSteps - m.registers.steps) s = t)
    (hwaiting : (polling && isWaiting t.result) = true) :
    drive dev receive maxSteps polling (a :: arrivals) m s =
      { drive dev receive maxSteps polling arrivals t.machine (receive a t.device) with
        notes := t.notes ++
          (drive dev receive maxSteps polling arrivals t.machine (receive a t.device)).notes,
        naps :=
          (drive dev receive maxSteps polling arrivals t.machine (receive a t.device)).naps + 1 } := by
  rw [drive]
  simp [ht, hwaiting]

/-- A run that stops where it is has nothing to wait for. -/
theorem isWaiting_here (o : Outcome) (ho : o ≠ .awaitingInput) :
    isWaiting (m.here o : Except (StepFault ε) StepResult) = false := by
  unfold Machine.here
  split
  · rfl
  · exact beq_false_of_ne ho

/-- **How a run that waits ends.**  It takes a row of steps that go on or wait, at most as many of
the first as its budget allows, and then there is one reason to end. -/
theorem driveEnd_drive (dev : Device σ ε) (receive : α → σ → σ) (maxSteps : Int) (polling : Bool) :
    ∀ (arrivals : List α) (m : Machine) (s : σ), m.Sound → m.breakpoints = [] →
      ∃ n later m' s', Lasts dev receive polling n arrivals m s later m' s' ∧
        m'.registers.steps = m.registers.steps + n ∧
        n ≤ (maxSteps - m.registers.steps).toNat ∧
        DriveEnd dev polling ((maxSteps - m.registers.steps).toNat - n) later m' s'
          (drive dev receive maxSteps polling arrivals m s) := by
  intro arrivals m s hsound hfree
  obtain ⟨n, m', s', hgo, hn, hend⟩ :=
    Machine.runEnd_run dev (maxSteps - m.registers.steps) m s
  have hsteps := Machine.steps_of_goesOn hsound hgo
  have hsound' := hsound.goesOn hgo
  have hfree' : m'.breakpoints = [] := hgo.invariant (P := fun m _ => m.breakpoints = [])
    (fun m s hm _ => (Machine.breakpoints_step dev m s).trans hm) hfree
  have hlasts : Lasts dev receive polling n arrivals m s arrivals m' s' :=
    .after_goesOn hgo (.refl arrivals m' s')
  generalize ht : m.run dev (maxSteps - m.registers.steps) s = t at hend
  cases hend with
  | timeout hleft hm hs hr =>
    have hdone : (polling && isWaiting t.result) = false := by
      rw [hr, isWaiting_here .timeout (by decide), Bool.and_false]
    refine ⟨n, arrivals, m', s', hlasts, hsteps, hn, ?_⟩
    rw [drive_of_done ht hdone]
    exact .timeout hleft hm hs (congrArg (Except.mapError DriveFault.step) hr)
  | breakpoint _ _ hb _ _ _ =>
    rw [Machine.atBreakpoint, hfree'] at hb
    simp at hb
  | stop hleft hstop hm hs hr =>
    by_cases hwaiting : (polling && isWaiting t.result) = true
    · obtain ⟨hpolling, hwait⟩ := Bool.and_eq_true_iff.mp hwaiting
      have hawaits : Awaits dev m' s' := isWaiting_iff.mp (hr ▸ hwait)
      cases arrivals with
      | nil =>
        refine ⟨n, [], m', s', hlasts, hsteps, hn, ?_⟩
        rw [drive_of_starved ht hwaiting]
        exact .starved hleft hpolling hawaits rfl hm hs rfl
      | cons a rest =>
        -- the run is taken up again where the step that waited has left the machine
        have hregisters := (Machine.registers_of_not_continues hsound' hstop).1
        obtain ⟨n₂, later, m₂, s₂, hlasts₂, hsteps₂, hn₂, hend₂⟩ :=
          driveEnd_drive dev receive maxSteps polling rest (m'.step dev s').machine
            (receive a (m'.step dev s').device) (hsound'.step dev s')
            ((Machine.breakpoints_step dev m' s').trans hfree')
        rw [hregisters] at hsteps₂ hn₂ hend₂
        have hleft₂ : (maxSteps - m'.registers.steps).toNat - n₂ =
            (maxSteps - m.registers.steps).toNat - (n + n₂) := by
          omega
        refine ⟨n + n₂, later, m₂, s₂, .after_goesOn hgo (.wait hpolling hawaits hlasts₂),
          by omega, by omega, ?_⟩
        rw [hleft₂] at hend₂
        rw [drive_of_waiting ht hwaiting, hm, hs]
        exact hend₂.imp rfl rfl rfl
    · have hwait : ¬ (polling = true ∧ Awaits dev m' s') := by
        rintro ⟨hpolling, hawaits⟩
        exact hwaiting (Bool.and_eq_true_iff.mpr ⟨hpolling, hr ▸ isWaiting_iff.mpr hawaits⟩)
      refine ⟨n, arrivals, m', s', hlasts, hsteps, hn, ?_⟩
      rw [drive_of_done ht (Bool.eq_false_iff.mpr hwaiting)]
      exact .stop hleft hstop hwait hm hs (congrArg (Except.mapError DriveFault.step) hr)
termination_by arrivals => arrivals.length

/-! ## 3. Halts -/

/-- **A row of steps that leads to a halt is the one that is taken**, if the budget is not used up
before. -/
theorem Lasts.result_of_halts {a : Address} {c : Cell} {d : Drive σ ε}
    (h : Lasts dev receive polling n arrivals m s later m' s')
    (hhalts : (m'.step dev s').result = .ok ⟨.halted, a, c⟩) {k left : Nat} {later₁ : List α}
    {m₁ : Machine} {s₁ : σ} (htaken : Lasts dev receive polling k arrivals m s later₁ m₁ s₁)
    (hend : DriveEnd dev polling left later₁ m₁ s₁ d) (hbudget : n < k + left) :
    d.result = .ok ⟨.halted, a, c⟩ := by
  -- a step does one thing, so both rows take the same steps; the one that is taken cannot end early
  induction h generalizing k with
  | refl arrivals m s =>
    cases htaken with
    | refl _ _ _ =>
      cases hend with
      | timeout hleft _ _ _ => omega
      | stop _ _ _ _ _ hr =>
        rw [hr, hhalts]
        rfl
      | starved _ _ hwait _ _ _ _ =>
        obtain ⟨a', c', hresult⟩ := hwait
        rw [hhalts] at hresult
        cases hresult
    | go hgo _ =>
      obtain ⟨a', c', hresult⟩ := hgo
      rw [hhalts] at hresult
      cases hresult
    | wait _ hwait _ =>
      obtain ⟨a', c', hresult⟩ := hwait
      rw [hhalts] at hresult
      cases hresult
  | go hgo _ ih =>
    cases htaken with
    | refl _ _ _ =>
      cases hend with
      | timeout hleft _ _ _ => omega
      | stop _ hstop _ _ _ _ => exact absurd hgo hstop
      | starved _ _ hwait _ _ _ _ => exact absurd hgo hwait.not_continues
    | go _ rest => exact ih hhalts rest (by omega)
    | wait _ hwait _ => exact absurd hgo hwait.not_continues
  | wait hpolling hwait _ ih =>
    cases htaken with
    | refl _ _ _ =>
      cases hend with
      | timeout hleft _ _ _ => omega
      | stop _ _ hnot _ _ _ => exact absurd ⟨hpolling, hwait⟩ hnot
      | starved _ _ _ hnone _ _ _ => cases hnone
    | go hgo _ => exact absurd hgo hwait.not_continues
    | wait _ _ rest => exact ih hhalts rest hbudget

/-- **A run that waits comes to a halt exactly when a row of steps leads to one** of which fewer go
on than the budget allows. -/
theorem drive_halts_iff (hsound : m.Sound) (hfree : m.breakpoints = []) {maxSteps : Int}
    {a : Address} {c : Cell} :
    (drive dev receive maxSteps polling arrivals m s).result = .ok ⟨.halted, a, c⟩ ↔
      ∃ n later m' s', n < (maxSteps - m.registers.steps).toNat ∧
        Lasts dev receive polling n arrivals m s later m' s' ∧
          (m'.step dev s').result = .ok ⟨.halted, a, c⟩ := by
  obtain ⟨k, later₁, m₁, s₁, htaken, -, hk, hend⟩ :=
    driveEnd_drive dev receive maxSteps polling arrivals m s hsound hfree
  constructor
  · intro hresult
    cases hend with
    | timeout _ _ _ hr =>
      have hhere := Outcome.mapError_eq_ok_iff.mp (hr.symm.trans hresult)
      unfold Machine.here at hhere
      split at hhere <;> cases hhere
    | stop hleft _ _ _ _ hr =>
      have hstep := Outcome.mapError_eq_ok_iff.mp (hr.symm.trans hresult)
      exact ⟨k, later₁, m₁, s₁, by omega, htaken, hstep⟩
    | starved _ _ _ _ _ _ hr =>
      rw [hr] at hresult
      cases hresult
  · rintro ⟨n, later, m', s', hn, hlasts, hhalts⟩
    exact hlasts.result_of_halts hhalts htaken hend (by omega)

end MinionComputer
