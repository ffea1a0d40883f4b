/-
# Serial lines

A serial line carries numbers as lines of digits and characters as single bytes, both ways.  What
arrives is moved from the port to a buffer when something is asked for; a request never waits.

* `SerialLine.requestNumber`: the first complete line that holds a number from 0 to 999, lines
  before it dropped;
* `SerialLine.requestCharacter`: the first byte, all others dropped;
* `SerialLine.connect`, `SerialLine.disconnect`: taking and giving back the port;
* `SerialLine.device`: the device.
-/
import MinionComputer.Device.Basic
import MinionComputer.Device.Port
import MinionComputer.Text.Numeral
import MinionComputer.Text.Quoted

namespace MinionComputer

/-- A line: its name and speed, its port, whether the port is in use, and the bytes taken from
the port that were not used yet. -/
structure SerialLine where
  name : Option String := none
  baud : Int := 9600
  port : Port := {}
  attached : Bool := true
  received : List UInt8 := []

namespace SerialLine

/-- The channel of the notes of serial lines. -/
def channel : String := "lmc_emulator.periph.serial_io"

/-- The name of a line in a message. -/
def displayName (s : SerialLine) : String := s.name.getD "None"

/-- Whether there is an open port. -/
def isConnected (s : SerialLine) : Bool := s.attached && s.port.isOpen

/-! ## 1. Reading -/

/-- Whether `b` is a blank in ASCII. -/
def isBlankByte (b : UInt8) : Bool := (9 ≤ b.toNat && b.toNat ≤ 13) || b.toNat == 32

/-- What a line says as a number: the number, the note that it is none, or nothing at all if it
is blank. -/
def numberOfLine (line : List UInt8) : Except (Option Note) Int :=
  let text := Text.trimBy isBlankByte line
  if text.isEmpty then .error none
  else
    let plain := text.all (·.toNat < 128)
    match plain, Text.readInteger (text.map fun b => Char.ofNat b.toNat) with
    | true, .ok n =>
      if 0 ≤ n ∧ n ≤ 999 then .ok n
      else .error (some ⟨.warning, channel, "Input out of range 0-999: " ++ Text.integer n⟩)
    | _, _ =>
      .error (some
        ⟨.warning, channel, "Discarding non-numeric input line " ++ Text.quotedBytes text⟩)

/-- The complete lines among the bytes, without their line feeds, and the bytes behind them. -/
def splitLines : List UInt8 → List (List UInt8) × List UInt8
  | [] => ([], [])
  | b :: r =>
    match splitLines r with
    | (ls, rest) =>
      if b = 10 then ([] :: ls, rest)
      else match ls with
        | [] => ([], b :: rest)
        | l :: ls' => ((b :: l) :: ls', rest)

/-- The lines with their line feeds. -/
def joinLines (ls : List (List UInt8)) : List UInt8 := ls.flatMap (· ++ [10])

/-- What taking a number from complete lines leaves: the lines behind the one it was on, the
notes on those before it, and the number. -/
structure Taking where
  rest : List (List UInt8)
  notes : List Note
  number : Option Int

/-- Takes lines up to the first that holds a number. -/
def Taking.ofLines : List (List UInt8) → Taking
  | [] => ⟨[], [], none⟩
  | l :: ls =>
    match numberOfLine l with
    | .ok n => ⟨ls, [], some n⟩
    | .error note =>
      let t := ofLines ls
      { t with notes := note.toList ++ t.notes }

/-- The line after moving what waits in the port to the buffer. -/
def poll (s : SerialLine) : SerialLine :=
  { s with received := s.received ++ s.port.waiting, port := { s.port with waiting := [] } }

/-- Takes complete lines up to one that holds a number. -/
def requestNumber (s : SerialLine) : Answer SerialLine PortFault (Option Int) :=
  if !s.attached then .quiet s (.error .notOpen)
  else
    let s := s.poll
    let (ls, rest) := splitLines s.received
    let t := Taking.ofLines ls
    ⟨{ s with received := joinLines t.rest ++ rest }, t.notes, .ok t.number⟩

/-- Takes everything for its first byte. -/
def requestCharacter (s : SerialLine) : Answer SerialLine PortFault (Option Int) :=
  if !s.attached then .quiet s (.error .notOpen)
  else
    let s := s.poll
    match s.received with
    | [] => .quiet s (.ok none)
    | b :: r =>
      let notes := if r.isEmpty then [] else
        [⟨.debug, channel, "Discarding " ++ Text.natural r.length ++ " extra input byte(s)"⟩]
      ⟨{ s with received := [] }, notes, .ok (some (b.toNat : Int))⟩

/-! ## 2. Writing -/

/-- Sends bytes. -/
def send (bs : List UInt8) (s : SerialLine) : Answer SerialLine PortFault Unit :=
  if !s.attached then .quiet s (.error .notOpen)
  else
    let (port, result) := s.port.write bs
    .quiet { s with port := port } result

/-- The bytes of a number on a line of its own. -/
def numberBytes (n : Int) : List UInt8 :=
  (Text.minusSign n ++ Text.decimal n.natAbs).map (·.toNat.toUInt8) ++ [10]

/-- Sends a number on a line of its own. -/
def emitNumber (n : Int) (s : SerialLine) : Answer SerialLine PortFault Unit :=
  send (numberBytes n) s

/-- Sends the lowest eight bits of a code. -/
def emitCharacter (code : Int) (s : SerialLine) : Answer SerialLine PortFault Unit :=
  send [(code % 256).toNat.toUInt8] s

/-- The device. -/
def device : Device SerialLine PortFault where
  requestNumber := requestNumber
  requestCharacter := requestCharacter
  emitNumber := emitNumber
  emitCharacter := emitCharacter

/-! ## 3. The port -/

/-- A line that is not open yet. -/
def closed (name : Option String) (baud : Int) : SerialLine :=
  { name := name, baud := baud, attached := false, port := { isOpen := false } }

/-- Opens the port, unless it is open; tells whether it is. -/
def connect (ports : PortLibrary) (s : SerialLine) : Answer SerialLine PortFault Bool :=
  if s.isConnected then .quiet s (.ok true)
  else match ports.openPort s.name s.baud with
    | .error f => .quiet s (.error f)
    | .ok none => ⟨s, [⟨.error, channel, "Failed to open " ++ s.displayName⟩], .ok false⟩
    | .ok (some p) =>
      ⟨{ s with port := p, attached := true },
        [⟨.info, channel, "Opened " ++ s.displayName ++ " @ " ++ Text.integer s.baud ++
          " baud (8N1)"⟩],
        .ok true⟩

/-- Gives the port back. -/
def disconnect (s : SerialLine) : Answer SerialLine PortFault Unit :=
  let notes := if s.isConnected then [⟨.info, channel, "Closed " ++ s.displayName⟩] else []
  ⟨{ s with port := { s.port with isOpen := s.port.isOpen && !s.attached }, attached := false },
    notes, .ok ()⟩

/-- Opens the port, and fails if it does not open. -/
def enter (ports : PortLibrary) (s : SerialLine) : Answer SerialLine PortFault Bool :=
  let a := s.connect ports
  match a.value with
  | .ok false => { a with value := .error (.couldNotOpen s.displayName) }
  | _ => a

/-- More bytes arrive in the port. -/
def feed (s : SerialLine) (bs : List UInt8) : SerialLine :=
  { s with port := { s.port with waiting := s.port.waiting ++ bs } }

/-- The port goes down by itself. -/
def lose (s : SerialLine) : SerialLine := { s with port := { s.port with isOpen := false } }

end SerialLine
end MinionComputer
