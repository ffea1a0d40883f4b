/-
# Serial ports

A port holds the bytes that have arrived and were not taken yet.  What is written to it goes out on
its line, or comes back to it at once if its line ends in itself.

Which ports there are, and what each does with what is written to it, is up to the library of ports
that the program is used with.  The library is a parameter: of a port it is only known that it keeps
bytes in their order (`Wiring.inOrder`), and of an opened port that it is open
(`PortLibrary.isOpen`).

* `Wiring`: what becomes of bytes that are written;
* `Port.write`: bytes out, or why not;
* `PortLibrary`: the ports that can be opened.
-/
namespace MinionComputer

/-! ## 1. Faults -/

/-- Why a port cannot be used. -/
inductive PortFault where
  /-- There is no open port. -/
  | notOpen
  /-- The port of that name does not open. -/
  | couldNotOpen (name : String)
  /-- Sending takes too long. -/
  | timeout
  /-- The port does not do what it is asked for. -/
  | device (message : String)
  /-- The library is given a name or a speed that it cannot use. -/
  | value (message : String)
  /-- Something else fails on the way, which the library does not answer for. -/
  | unforeseen (message : String)
  deriving DecidableEq, Repr

/-- The wording of a fault. -/
def PortFault.message : PortFault → String
  | .notOpen => "Port not open"
  | .couldNotOpen name => "Could not open " ++ name
  | .timeout => "Write timeout"
  | .device message | .value message | .unforeseen message => message

/-! ## 2. Ports -/

/-- What becomes of bytes that are written to a port: those that go out on its line, those that wait
in it at once, and whether it took all of them. -/
structure Transfer where
  out : List UInt8 := []
  back : List UInt8 := []
  result : Except PortFault Unit := .ok ()

/-- What is at the other end of a line. -/
structure Wiring where
  /-- What becomes of the second bytes when the first wait in the port. -/
  transfer : List UInt8 → List UInt8 → Transfer
  /-- Bytes that are taken come back or go out, all of them and in their order. -/
  inOrder : ∀ {waiting bs : List UInt8}, (transfer waiting bs).result = .ok () →
    (transfer waiting bs).back ++ (transfer waiting bs).out = bs

/-- Someone else is at the other end, who takes everything. -/
def Wiring.line : Wiring where
  transfer _ bs := { out := bs }
  inOrder _ := rfl

/-- A port: whether it is open, the bytes that wait in it, the bytes sent on its line, and how
often it was flushed. -/
structure Port where
  wiring : Wiring := .line
  isOpen : Bool := true
  waiting : List UInt8 := []
  sent : Array UInt8 := #[]
  flushes : Nat := 0

/-- Sends bytes, and flushes if all were taken. -/
def Port.write (p : Port) (bs : List UInt8) : Port × Except PortFault Unit :=
  let t := p.wiring.transfer p.waiting bs
  let p' := { p with waiting := p.waiting ++ t.back, sent := p.sent ++ t.out.toArray }
  match t.result with
  | .ok () => ({ p' with flushes := p.flushes + 1 }, .ok ())
  | .error f => (p', .error f)

/-! ## 3. Libraries -/

/-- The ports that can be opened. -/
structure PortLibrary where
  /-- The port of that name at that speed in bits a second, none if it does not open, or why it cannot
  be looked for. -/
  openPort : Option String → Int → Except PortFault (Option Port)
  /-- A port that was opened is open. -/
  isOpen : ∀ {name : Option String} {baud : Int} {p : Port},
    openPort name baud = .ok (some p) → p.isOpen = true

end MinionComputer
