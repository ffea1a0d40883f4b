/-
# Executing a program

A program is executed with one budget of steps, however often it has to wait for input.  While it
waits on a serial line, the line is given time for more bytes to arrive, and waiting costs no
steps.

* `drive`: a run that waits;
* `verdict`: what a result means to who started the program;
* `execute`: all of it, with the trace.
-/
import MinionComputer.Command.Settings
import MinionComputer.Machine.Run
import MinionComputer.Device.Handler

namespace MinionComputer

/-! ## 1. Runs that wait -/

/-- Why a run that waits fails: a step failed, or nothing more arrives. -/
inductive DriveFault (ε : Type) where
  | step (f : StepFault ε)
  | starved
  deriving DecidableEq, Repr

/-- What a run that waits came to, and how often it waited. -/
structure Drive (σ ε : Type) where
  machine : Machine
  device : σ
  notes : List Note
  naps : Nat
  result : Except (DriveFault ε) StepResult

/-- What a run came to that did not have to wait. -/
def Drive.ofTurn {σ ε : Type} (t : Turn σ ε) : Drive σ ε :=
  ⟨t.machine, t.device, t.notes, 0, t.result.mapError .step⟩

/-- Whether a result is to be waited on. -/
def isWaiting {ε : Type} : Except (StepFault ε) StepResult → Bool
  | .ok r => r.outcome == .awaitingInput
  | .error _ => false

/-- Runs within a budget of steps.  If it is `polling`, it takes up a run that waits for input
after each of the arrivals, which `receive` hands to the device. -/
def drive {σ ε α : Type} (dev : Device σ ε) (receive : α → σ → σ) (maxSteps : Int)
    (polling : Bool) : (arrivals : List α) → Machine → σ → Drive σ ε
  | arrivals, m, s =>
    let t := m.run dev (maxSteps - m.registers.steps) s
    if polling && isWaiting t.result then
      match arrivals with
      | [] => ⟨t.machine, t.device, t.notes, 1, .error .starved⟩
      | a :: rest =>
        let d := drive dev receive maxSteps polling rest t.machine (receive a t.device)
        { d with notes := t.notes ++ d.notes, naps := d.naps + 1 }
    else .ofTurn t

/-! ## 2. Verdicts -/

/-- What a result means: nothing if the program halted, or else what is to be said about it. -/
def verdict (maxSteps : Int) (r : StepResult) : Option String :=
  match r.outcome with
  | .halted => none
  | .awaitingInput =>
    some ("Input ended while the program was waiting for it (" ++ r.message ++ ")")
  | .timeout =>
    some ("No HLT within " ++ Text.integer maxSteps ++ " steps (" ++ r.message ++ ")")
  | _ => some r.message

/-- Why an execution fails: something to be said, or a fault on the way. -/
inductive ExecutionFault where
  | refused (message : String)
  | drive (f : DriveFault HandlerFault)
  deriving DecidableEq, Repr

/-- What an execution came to. -/
structure Execution where
  machine : Machine
  handler : Handler
  notes : List Note
  naps : Nat
  /-- What it says about itself. -/
  said : List Char
  result : Except ExecutionFault Unit

/-- The channel of the notes on commands. -/
def commandChannel : String := "lmckit"

/-- What a run came to, judged. -/
def judge (maxSteps : Int) (steps : Int) :
    Except (DriveFault HandlerFault) StepResult → List Note × Except ExecutionFault Unit
  | .error f => ([], .error (.drive f))
  | .ok r =>
    ([⟨.info, commandChannel, r.message ++ " after " ++ Text.integer steps ++ " steps"⟩],
      match verdict maxSteps r with
      | none => .ok ()
      | some message => .error (.refused message))

/-- More bytes arrive at a handler that has a line. -/
def receive (bs : List UInt8) : Handler → Handler
  | .serial l => .serial (l.feed bs)
  | h => h

/-- Gives the port back, if there is one. -/
def release : Handler → List Note × Handler
  | .serial l => (l.disconnect.notes, .serial l.disconnect.state)
  | h => ([], h)

/-- Executes a program.  If the handler was `opened` for it, it is polled, and given back at the
end, whatever the end is; then the trace is told, if one was kept. -/
def execute (s : Settings) (memory : Memory) (handler : Handler) (opened : Bool) : Execution :=
  let m := (Machine.start memory).setTracing s.tracing
  let d := drive Handler.device receive s.maxSteps opened [] m handler
  let (closing, handler') := if opened then release d.device else ([], d.device)
  let said := if s.tracing then d.machine.traceText ++ ['\n'] else []
  let (judging, result) := judge s.maxSteps d.machine.registers.steps d.result
  ⟨d.machine, handler', m.startNote :: d.notes ++ closing ++ judging, d.naps, said, result⟩

end MinionComputer
