/-
# Histories of machines

One thing after another is done to a machine: it is stepped and run, its memory is rewritten, its
device is given more input, its breakpoints are moved and its trace is switched on and off, and now
and then a new run begins.  What happens between two beginnings leaves the registers, the mode and
the end of the run to the steps, so whatever the steps keep is kept until the next beginning.

* `Act`, `Act.performAll`: what can be done to a machine, one thing after another;
* `Act.begins`: the acts with which a run begins;
* `Act.perform_keeps`, `Act.performAll_keeps`: what steps keep is kept in the course of a run;
* `Act.sound_performAll`: a machine with a history is sound.
-/
import MinionComputer.Proofs.Machine.Safety

namespace MinionComputer

variable {σ ε ω : Type} {dev : Device σ ε}

/-! ## 1. Acts -/

/-- Something done to a machine and its device from outside, the trace included. -/
inductive Act (σ ω : Type) where
  | use (u : Use σ ω)
  /-- Any change to the cells. -/
  | rewrite (f : Memory → Memory)
  | setTracing (on : Bool)
  | clearTrace

namespace Act

/-- Does it, with a device that keeps a record. -/
def perform (dev : Device σ ε) (a : Act σ ω) (m : Machine) (x : σ × List Call) :
    Machine × σ × List Call :=
  match a with
  | use u => u.perform dev m x
  | rewrite f => ({ m with memory := f m.memory }, x)
  | setTracing on => (m.setTracing on, x)
  | clearTrace => (m.clearTrace, x)

/-- Does one thing after another. -/
def performAll (dev : Device σ ε) : List (Act σ ω) → Machine → σ × List Call →
    Machine × σ × List Call
  | [], m, x => (m, x)
  | a :: acts, m, x => performAll dev acts (a.perform dev m x).1 (a.perform dev m x).2

/-- Whether a new run begins with it. -/
def begins : Act σ ω → Bool
  | use .reset | use (.load _) => true
  | _ => false

end Act

/-! ## 2. In the course of a run -/

/-- The registers, the mode and the end of the run were left alone. -/
structure Machine.Untouched (m m' : Machine) : Prop where
  registers : m'.registers = m.registers
  extended : m'.extended = m.extended
  final : m'.final = m.final

/-- What keeps `P` of a machine and its device in the course of a run: steps with and without
checks, and whatever leaves the machine and the record of calls untouched. -/
structure Machine.Kept (dev : Device σ ε) (ω : Type)
    (P : Machine → σ × List Call → Prop) : Prop where
  step : ∀ m x, P m x → P (m.step dev.recorded x).machine (m.step dev.recorded x).device
  checkedStep : ∀ m (observer : Observer ω) x, P m x →
    P (m.checkedStep dev.recorded observer x).machine (m.checkedStep dev.recorded observer x).device
  untouched : ∀ m m' s s' record, m.Untouched m' → P m (s, record) → P m' (s', record)

namespace Act

open Machine

variable {P : Machine → σ × List Call → Prop} {m : Machine} {x : σ × List Call}

/-- **What steps keep, every act in the course of a run keeps.** -/
theorem perform_keeps (hP : Kept dev ω P) {a : Act σ ω} (ha : a.begins = false) (h : P m x) :
    P (a.perform dev m x).1 (a.perform dev m x).2 := by
  obtain ⟨s, record⟩ := x
  cases a with
  | rewrite f => exact hP.untouched m _ s s record ⟨rfl, rfl, rfl⟩ h
  | setTracing on => exact hP.untouched m _ s s record ⟨rfl, rfl, rfl⟩ h
  | clearTrace => exact hP.untouched m _ s s record ⟨rfl, rfl, rfl⟩ h
  | use u =>
    cases u with
    | step => exact hP.step m (s, record) h
    | checkedStep observer => exact hP.checkedStep m observer (s, record) h
    | run budget => exact run_invariant hP.step budget h
    | reset => cases ha
    | load memory => cases ha
    | write address value =>
      simp only [perform, Use.perform]
      split
      · exact hP.untouched m _ s s record ⟨rfl, rfl, rfl⟩ h
      · exact h
    | change f => exact hP.untouched m m s (f s) record ⟨rfl, rfl, rfl⟩ h
    | addBreakpoint b => exact hP.untouched m _ s s record ⟨rfl, rfl, rfl⟩ h
    | removeBreakpoint b => exact hP.untouched m _ s s record ⟨rfl, rfl, rfl⟩ h
    | clearBreakpoints => exact hP.untouched m _ s s record ⟨rfl, rfl, rfl⟩ h

/-- **What steps keep, a history without a beginning keeps.** -/
theorem performAll_keeps (hP : Kept dev ω P) {acts : List (Act σ ω)}
    (hacts : ∀ a ∈ acts, a.begins = false) (h : P m x) :
    P (performAll dev acts m x).1 (performAll dev acts m x).2 := by
  induction acts generalizing m x with
  | nil => exact h
  | cons a acts ih =>
    rw [List.forall_mem_cons] at hacts
    exact ih hacts.2 (perform_keeps hP hacts.1 h)

/-! ## 3. Soundness -/

theorem kept_sound (dev : Device σ ε) (ω : Type) : Kept dev ω fun m _ => m.Sound where
  step := by
    intro m x h
    exact h.step _ _
  checkedStep := by
    intro m observer x h
    exact h.checkedStep _ observer _
  untouched := by
    intro m m' _ _ _ hm h
    exact h.of_eq hm.registers hm.final

/-- **A machine with a history is sound.** -/
theorem sound_performAll (dev : Device σ ε) (acts : List (Act σ ω)) (x : σ × List Call)
    (h : m.Sound) : (performAll dev acts m x).1.Sound := by
  induction acts generalizing m x with
  | nil => exact h
  | cons a acts ih =>
    have ha : (a.perform dev m x).1.Sound := by
      by_cases hbegins : a.begins = true
      · unfold begins at hbegins
        split at hbegins
        · exact sound_of_fresh rfl rfl
        · exact sound_of_fresh rfl rfl
        · exact absurd hbegins Bool.false_ne_true
      · exact perform_keeps (kept_sound dev ω) (Bool.eq_false_iff.mpr hbegins) h
    exact ih _ ha

end Act
end MinionComputer
