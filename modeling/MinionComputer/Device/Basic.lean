/-
# Devices

The machine reads and writes through a device and knows nothing else about it.  Asked for input,
a device may have none yet; asked for anything, it may fail with a fault of its own.

* `Answer`: the state a device is left in, what it noted, and its answer or fault;
* `Device`: the four things a device can be asked.
-/
import MinionComputer.Note

namespace MinionComputer

/-- What came of asking a device whose states are `σ` and whose faults are `ε`. -/
structure Answer (σ ε α : Type) where
  state : σ
  notes : List Note
  value : Except ε α

/-- A device: what each request does in a state.  Input that is not there yet is `none`. -/
structure Device (σ ε : Type) where
  requestNumber : σ → Answer σ ε (Option Int)
  requestCharacter : σ → Answer σ ε (Option Int)
  emitNumber : Int → σ → Answer σ ε Unit
  emitCharacter : Int → σ → Answer σ ε Unit

namespace Answer

variable {σ τ ε δ α β : Type}

/-- An answer without notes. -/
def quiet (state : σ) (value : Except ε α) : Answer σ ε α := ⟨state, [], value⟩

/-- The answer of a device that is part of a larger one. -/
def lift (f : σ → τ) (g : ε → δ) (a : Answer σ ε α) : Answer τ δ α :=
  ⟨f a.state, a.notes, a.value.mapError g⟩

/-- The answer with its value changed. -/
def map (f : α → β) (a : Answer σ ε α) : Answer σ ε β := ⟨a.state, a.notes, a.value.map f⟩

end Answer
end MinionComputer
