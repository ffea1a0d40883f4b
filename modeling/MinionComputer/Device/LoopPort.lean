/-
# The port whose line ends in itself

One port is there without any device: it gets back what is written to it.  It holds a few thousand
bytes, and takes no more at once than could be sent in a second.

* `Wiring.loop`: what becomes of bytes that are written to it;
* `PortAddress.ofString`: what a name of a port stands for;
* `PortLibrary.loopback`: the library in which there is no other port.
-/
import MinionComputer.Device.Port
import MinionComputer.Text.Capital
import MinionComputer.Text.Numeral
import MinionComputer.Text.Piece
import MinionComputer.Text.Quoted

namespace MinionComputer

/-! ## 1. The wiring -/

namespace Wiring

/-- How many bytes may wait in a port that gets back what it sends. -/
def loopCapacity : Nat := 4096

/-- Ten bits a byte: whether so many bytes take more than a second. -/
def isSlow (baud count : Nat) : Bool := baud < 10 * count

/-- What becomes of bytes that are written at this speed to a port that gets back what it sends. -/
def loopTransfer (baud : Nat) (waiting bs : List UInt8) : Transfer :=
  let room := loopCapacity - waiting.length
  if isSlow baud bs.length then { result := .error .timeout }
  else if bs.length ≤ room then { back := bs }
  else { back := bs.take room, result := .error (.unforeseen "") }

theorem loopTransfer_inOrder {baud : Nat} {waiting bs : List UInt8} :
    (loopTransfer baud waiting bs).result = .ok () →
      (loopTransfer baud waiting bs).back ++ (loopTransfer baud waiting bs).out = bs := by
  simp only [loopTransfer]
  split
  · intro h
    cases h
  · split
    · intro _
      exact List.append_nil bs
    · intro h
      cases h

/-- The port itself is at the other end, at this speed in bits a second. -/
def loop (baud : Nat) : Wiring where
  transfer := loopTransfer baud
  inOrder := loopTransfer_inOrder

end Wiring

/-! ## 2. Names of ports -/

/-- What the name of a port stands for. -/
inductive PortAddress where
  /-- A port that gets back what it sends. -/
  | loop
  /-- Something that is not there. -/
  | absent
  /-- A scheme that nothing is known of. -/
  | unknown (scheme : String)
  deriving DecidableEq, Repr

namespace PortAddress

/-- The text before the first `://`, and the text behind it. -/
def splitScheme? : List Char → Option (List Char × List Char)
  | [] => none
  | ':' :: '/' :: '/' :: r => some ([], r)
  | c :: r => (splitScheme? r).map fun x => (c :: x.1, x.2)

/-- The schemes of ports that need something this library has not. -/
def knownSchemes : List String := ["alt", "hwgrep", "rfc2217", "socket", "spy"]

/-- The names of the options behind a question mark. -/
def optionNames (rest : List Char) : List (List Char) :=
  let query := ((rest.takeWhile (· != '#')).dropWhile (· != '?')).drop 1
  ((Text.splitAt '&' query).filter (!·.isEmpty)).map (·.takeWhile (· != '='))

/-- What the name stands for. -/
def ofString (name : String) : PortAddress :=
  match splitScheme? name.toList with
  | none => .absent
  | some (scheme, rest) =>
    let s := String.ofList (Text.lowerAscii scheme)
    if s = "loop" then
      if (optionNames rest).all (· == "logging".toList) then .loop else .absent
    else if knownSchemes.contains s then .absent
    else .unknown s

end PortAddress

/-! ## 3. The library -/

namespace PortLibrary

/-- The scheme of a name is one that nothing is known of. -/
def unknownScheme (scheme : String) : PortFault :=
  .value ("invalid URL, protocol " ++ Text.quoted scheme.toList ++ " not known")

/-- The port of that name, if it is the one that there is. -/
def openLoop (name : Option String) (baud : Int) : Except PortFault (Option Port) :=
  match name.map PortAddress.ofString with
  | some (.unknown s) => .error (unknownScheme s)
  | address =>
    if baud < 0 then .error (.value ("Not a valid baudrate: " ++ Text.integer baud))
    else if address ≠ some .loop then .ok none
    else if baud = 0 ∨ 4294967296 ≤ baud then
      .error (.value ("invalid baudrate: " ++ Text.integer baud))
    else .ok (some { wiring := .loop baud.toNat })

theorem isOpen_of_openLoop {name : Option String} {baud : Int} {p : Port}
    (h : openLoop name baud = .ok (some p)) : p.isOpen = true := by
  unfold openLoop at h
  split at h
  · cases h
  · split at h
    · cases h
    · split at h
      · cases h
      · split at h
        · cases h
        · cases h
          rfl

/-- There is no port but the one whose line ends in itself. -/
def loopback : PortLibrary where
  openPort := openLoop
  isOpen := isOpen_of_openLoop

end PortLibrary
end MinionComputer
