/-
# Consoles

A console reads lines and writes text.  A number is asked for again and again until a line holds
one from 0 to 999; a character is the first of a line, whose rest is lost.

* `Feed`: the lines of the input, and whether it can be read to its end;
* `Feed.ofText`, `Feed.ofBytes`: where they come from;
* `Console.device`: the device.
-/
import MinionComputer.Device.Scripted
import MinionComputer.Text.Utf8

namespace MinionComputer

/-! ## 1. Input -/

/-- Lines to be read, and the fault that reading meets behind them, if it meets one.  A feed that
is `growing` has not ended where its lines end: nobody knows yet what comes there. -/
structure Feed where
  lines : List (List Char)
  fault : Option Text.Utf8.Fault := none
  growing : Bool := false

namespace Feed

/-- The lines of a text, each ended by a line feed. -/
def ofText (text : List Char) : Feed := { lines := Text.dropEmptyLast (Text.splitAt '\n' text) }

/-- How many bytes are read at once. -/
def partSize : Nat := 8192

/-- Decodes bytes in at most `parts` parts: the text up to the first part that is not UTF-8, and
the fault.  `held` is the beginning of a character, left from the part before. -/
def decodeParts (held : List UInt8) : (parts : Nat) → List UInt8 →
    List Char × Option Text.Utf8.Fault
  | 0, _ =>
    match Text.Utf8.decode held with
    | .ok cs => (cs, none)
    | .error f => ([], some f)
  | n + 1, bs =>
    match Text.Utf8.decodePart (held ++ bs.take partSize) with
    | .error f => ([], some f)
    | .ok (cs, held') =>
      let (more, fault) := decodeParts held' n (bs.drop partSize)
      (cs ++ more, fault)

/-- The lines in a row of bytes, whichever way their ends are written.  Before a fault only whole
lines are there to be read. -/
def ofBytes (bs : List UInt8) : Feed :=
  let (text, fault) := decodeParts [] ((bs.length + partSize - 1) / partSize) bs
  match fault with
  | none => ofText (Text.unifyLineEnds text)
  | some f =>
    let settled := if text.getLast? = some '\r' then text.dropLast else text
    { lines := (Text.splitAt '\n' (Text.unifyLineEnds settled)).dropLast, fault := some f }

end Feed

/-! ## 2. The device -/

/-- Why a console fails. -/
inductive ConsoleFault where
  /-- The input is not UTF-8. -/
  | undecodable (f : Text.Utf8.Fault)
  /-- There is no character of that code. -/
  | code (f : CodeFault)
  /-- Nobody knows yet what comes next. -/
  | waiting
  deriving DecidableEq, Repr

/-- What is left to read, what was written, and whether requests write a prompt. -/
structure Console where
  feed : Feed
  prompting : Bool := true
  out : Array Char := #[]

namespace Console

/-- The channel of the notes of consoles. -/
def channel : String := "lmc_emulator.periph.console"

/-- The console after writing. -/
def write (c : Console) (text : String) : Console := { c with out := c.out ++ text.toList.toArray }

/-- The console after writing a prompt, if it does that. -/
def prompt (c : Console) (text : String) : Console := if c.prompting then c.write text else c

/-- What a request comes to when no line is left. -/
def atEnd (c : Console) : Answer Console ConsoleFault (Option Int) :=
  match c.feed.fault with
  | some f => .quiet c (.error (.undecodable f))
  | none => .quiet c (if c.feed.growing then .error .waiting else .ok none)

/-- What a line says as a number: the number, or the note that it is none. -/
def numberOfLine (line : List Char) : Except Note Int :=
  let text := Text.trim line
  match Text.readInteger text with
  | .error _ => .error ⟨.warning, channel, "Not a number: " ++ Text.quoted text⟩
  | .ok n =>
    if 0 ≤ n ∧ n ≤ 999 then .ok n
    else .error ⟨.warning, channel, "Input out of range 0-999: " ++ Text.integer n⟩

/-- The number on the first of the lines that hold one; `c` is the console without the lines. -/
def numberFrom (c : Console) : List (List Char) → Answer Console ConsoleFault (Option Int)
  | [] => atEnd { c.prompt "Input: " with feed := { c.feed with lines := [] } }
  | line :: rest =>
    let c := c.prompt "Input: "
    match numberOfLine line with
    | .ok n => .quiet { c with feed := { c.feed with lines := rest } } (.ok (some n))
    | .error note =>
      let answer := numberFrom c rest
      { answer with notes := note :: answer.notes }

/-- Reads lines up to one that holds a number. -/
def requestNumber (c : Console) : Answer Console ConsoleFault (Option Int) :=
  numberFrom c c.feed.lines

/-- Whether `c` is a carriage return or a line feed. -/
def isReturn (c : Char) : Bool := c == '\r' || c == '\n'

/-- What a line says as a character: its code, and the note that there was more.  An empty line
is a line feed. -/
def characterOfLine (line : List Char) : Int × List Note :=
  match Text.dropEnd isReturn line with
  | [] => (10, [])
  | x :: [] => (x.toNat, [])
  | x :: y :: r =>
    (x.toNat, [⟨.debug, channel, "Discarding extra character input " ++ Text.quoted (y :: r)⟩])

/-- Reads one line for its first character. -/
def requestCharacter (c : Console) : Answer Console ConsoleFault (Option Int) :=
  let c := c.prompt "Input char: "
  match c.feed.lines with
  | [] => c.atEnd
  | line :: rest =>
    let (code, notes) := characterOfLine line
    ⟨{ c with feed := { c.feed with lines := rest } }, notes, .ok (some code)⟩

/-- Writes a number on a line of its own. -/
def emitNumber (n : Int) (c : Console) : Answer Console ConsoleFault Unit :=
  .quiet (c.write (Text.integer n ++ "\n")) (.ok ())

/-- Writes the character of a code. -/
def emitCharacter (code : Int) (c : Console) : Answer Console ConsoleFault Unit :=
  match characterOf code with
  | .ok x => .quiet { c with out := c.out.push x } (.ok ())
  | .error f => .quiet c (.error (.code f))

/-- The device. -/
def device : Device Console ConsoleFault where
  requestNumber := requestNumber
  requestCharacter := requestCharacter
  emitNumber := emitNumber
  emitCharacter := emitCharacter

end Console
end MinionComputer
