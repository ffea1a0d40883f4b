/-
# Handlers

The devices a program may be run with, as one type.

* `Handler`: a scripted device, a console, a serial line, or nothing behind the interface;
* `Handler.device`: each behaves as it does alone.
-/
import MinionComputer.Device.Console
import MinionComputer.Device.SerialLine

namespace MinionComputer

/-- A device of one of the kinds. -/
inductive Handler where
  | scripted (s : Scripted)
  | console (c : Console)
  | serial (l : SerialLine)
  /-- The interface alone; every request fails. -/
  | bare

/-- Why a handler fails. -/
inductive HandlerFault where
  | unimplemented
  | console (f : ConsoleFault)
  | port (f : PortFault)
  deriving DecidableEq, Repr

/-- The wording of a fault. -/
def HandlerFault.message : HandlerFault → String
  | .unimplemented => ""
  | .console (.undecodable f) => f.message
  | .console (.code f) => f.message
  | .console .waiting => ""
  | .port f => f.message

namespace Handler

/-- Asks the device inside. -/
def ask {α : Type} (scripted : Scripted → Answer Scripted Empty α)
    (console : Console → Answer Console ConsoleFault α)
    (serial : SerialLine → Answer SerialLine PortFault α) :
    Handler → Answer Handler HandlerFault α
  | .scripted s => (scripted s).lift .scripted (fun e => nomatch e)
  | .console c => (console c).lift .console .console
  | .serial l => (serial l).lift .serial .port
  | .bare => .quiet .bare (.error .unimplemented)

/-- The device. -/
def device : Device Handler HandlerFault where
  requestNumber :=
    ask Scripted.device.requestNumber Console.device.requestNumber SerialLine.device.requestNumber
  requestCharacter :=
    ask Scripted.device.requestCharacter Console.device.requestCharacter
      SerialLine.device.requestCharacter
  emitNumber n :=
    ask (Scripted.device.emitNumber n) (Console.device.emitNumber n)
      (SerialLine.device.emitNumber n)
  emitCharacter n :=
    ask (Scripted.device.emitCharacter n) (Console.device.emitCharacter n)
      (SerialLine.device.emitCharacter n)

end Handler
end MinionComputer
