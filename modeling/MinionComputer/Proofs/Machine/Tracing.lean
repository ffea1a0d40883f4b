/-
# Traces make no difference

A machine keeps a trace or it does not, and nothing else about it depends on that: no step sees the
trace, so taking it away goes through everything that a machine does.  The run of a machine without
its trace is the run of the machine, with the trace taken away from what it leaves.

* `Machine.untraced`, `Turn.untraced`: a machine without its trace, and what such a machine did;
* `Machine.run_untraced`: a run.
-/
import MinionComputer.Proofs.Machine.Unseen

namespace MinionComputer

variable {σ ε : Type}

/-- The machine without its trace, and keeping none. -/
def Machine.untraced (m : Machine) : Machine := { m with tracing := false, trace := #[] }

/-- What was done, with the trace of the machine taken away. -/
def Turn.untraced (t : Turn σ ε) : Turn σ ε := { t with machine := t.machine.untraced }

namespace Machine

variable (dev : Device σ ε) (m : Machine) (s : σ)

/-- No step sees whether there is a trace, or what is in it. -/
theorem unseen_untraced : Unseen untraced where
  registers _ := rfl
  memory _ := rfl
  extended _ := rfl
  final _ := rfl
  withRegisters _ _ := rfl
  withMemory _ _ := rfl
  withFinal _ _ := rfl
  traced m a c i := by
    unfold traced
    split
    · next h => exact absurd h Bool.false_ne_true
    · split <;> rfl

/-- **The run of a machine without its trace** is its run with the trace taken away. -/
theorem run_untraced (budget : Int) : m.untraced.run dev budget s = (m.run dev budget s).untraced :=
  unseen_untraced.run dev m s budget fun _ _ => rfl

/-- A machine that is about to begin has nothing in its trace yet. -/
@[simp] theorem untraced_setTracing_start (memory : Memory) (on : Bool) :
    ((start memory).setTracing on).untraced = start memory := rfl

end Machine
end MinionComputer
