/-
# Devices that keep a record

What a machine asks of its device is not part of the machine, so it is seen through a device that
does what another does and keeps every call in a record.

* `Call`: what a machine can ask, with the number it hands over;
* `Device.recorded`: a device with a record;
* `Device.Raises`: the faults that a device can fail with in a state.
-/
import MinionComputer.Device.Basic

namespace MinionComputer

/-- What a machine asks of its device. -/
inductive Call where
  | requestNumber
  | requestCharacter
  | emitNumber (n : Int)
  | emitCharacter (code : Int)
  deriving DecidableEq, Repr

/-- What a machine may ask: numbers that are cells, and codes of eight bits. -/
def Call.Proper : Call → Prop
  | emitNumber n => 0 ≤ n ∧ n ≤ 999
  | emitCharacter code => 0 ≤ code ∧ code ≤ 255
  | _ => True

/-- Whether numbers are asked for or written, and not characters. -/
def Call.isNumeric : Call → Bool
  | requestNumber | emitNumber _ => true
  | requestCharacter | emitCharacter _ => false

variable {σ ε α : Type}

/-- The answer of a device with the call that it answers put behind a record. -/
def Answer.noted (record : List Call) (c : Call) (a : Answer σ ε α) :
    Answer (σ × List Call) ε α :=
  ⟨(a.state, record ++ [c]), a.notes, a.value⟩

/-- The device with a record of all calls, the latest last. -/
def Device.recorded (dev : Device σ ε) : Device (σ × List Call) ε where
  requestNumber x := (dev.requestNumber x.1).noted x.2 .requestNumber
  requestCharacter x := (dev.requestCharacter x.1).noted x.2 .requestCharacter
  emitNumber n x := (dev.emitNumber n x.1).noted x.2 (.emitNumber n)
  emitCharacter c x := (dev.emitCharacter c x.1).noted x.2 (.emitCharacter c)

/-- The device fails with `e` when it is asked something in state `s`. -/
inductive Device.Raises (dev : Device σ ε) (s : σ) (e : ε) : Prop
  | requestNumber (h : (dev.requestNumber s).value = .error e)
  | requestCharacter (h : (dev.requestCharacter s).value = .error e)
  | emitNumber (n : Int) (h : (dev.emitNumber n s).value = .error e)
  | emitCharacter (code : Int) (h : (dev.emitCharacter code s).value = .error e)

end MinionComputer
