/-
# Addresses and values from outside

Who uses a memory from outside may name any address and any value, and may even hand over
something that is no number.  What does not fit is rejected, never wrapped or clamped, and the
rejected thing is shown in the message.

* `Argument`: what may be handed over, and how it shows;
* `MemoryFault`: why an access is rejected;
* `Memory.readAt`, `Memory.writeAt`, `Memory.ofValues`: the accesses that check.
-/
import MinionComputer.Memory.Basic
import MinionComputer.Text.Quoted

namespace MinionComputer

/-! ## 1. Arguments -/

/-- Something handed over as an address or a value.  A decimal fraction is `digits` divided by
the power of ten to `places`. -/
inductive Argument where
  | absent
  | whole (n : Int)
  | fraction (negative : Bool) (digits places : Nat)
  | text (s : String)
  | list (items : List Argument)
  deriving Inhabited

namespace Argument

/-- The digits without the zeros at their end, and how many of those there were. -/
def dropZeros (digits : List Char) : List Char × Nat :=
  let kept := Text.dropEnd (· == '0') digits
  (kept, digits.length - kept.length)

/-- A decimal fraction in its shortest form: positional while the first digit is at most sixteen
places before the point and four behind it, and with an exponent of ten beyond. -/
def showFraction (negative : Bool) (digits places : Nat) : List Char :=
  let sign := if negative then ['-'] else []
  let (kept, dropped) := dropZeros (Text.decimal digits)
  if kept.isEmpty then sign ++ ['0', '.', '0']
  else
    let point : Int := (kept.length : Int) + (dropped : Int) - (places : Int)
    if point ≤ -4 ∨ 16 < point then
      let exponent := point - 1
      let rest := kept.drop 1
      let mantissa := kept.take 1 ++ (if rest.isEmpty then [] else '.' :: rest)
      sign ++ mantissa ++ 'e' :: Text.paddedSigned 3 exponent
    else if point ≤ 0 then
      sign ++ '0' :: '.' :: (List.replicate (-point).toNat '0' ++ kept)
    else
      let before := kept.take point.toNat
      let behind := kept.drop point.toNat
      sign ++ before ++ List.replicate (point.toNat - before.length) '0' ++
        '.' :: (if behind.isEmpty then ['0'] else behind)

mutual

/-- How an argument shows in a message. -/
def shown : Argument → List Char
  | .absent => ['N', 'o', 'n', 'e']
  | .whole n => Text.padded 0 n
  | .fraction negative digits places => showFraction negative digits places
  | .text s => Text.quotedChars s.toList
  | .list items => '[' :: shownItems items ++ [']']

/-- The arguments of a list with commas between them. -/
def shownItems : List Argument → List Char
  | [] => []
  | [x] => shown x
  | x :: y :: r => shown x ++ ',' :: ' ' :: shownItems (y :: r)

end

/-- `shown` as a string. -/
def display (a : Argument) : String := String.ofList a.shown

/-- The whole number that the argument is equal to. -/
def whole? : Argument → Option Int
  | .whole n => some n
  | .fraction negative digits places =>
    let scale := Nat.pow 10 places
    if digits % scale = 0 then some (Text.withSign negative (digits / scale)) else none
  | _ => none

/-- The address that the argument is. -/
def address? : Argument → Option Address
  | .whole n => Address.ofInt? n
  | _ => none

/-- The cell that the argument is. -/
def cell? : Argument → Option Cell
  | .whole n => Cell.ofInt? n
  | _ => none

end Argument

/-! ## 2. Checked accesses -/

/-- Why an access is rejected. -/
inductive MemoryFault where
  /-- No address. -/
  | address (a : Argument)
  /-- Nothing that a cell can hold. -/
  | value (v : Argument)
  /-- More cells than a memory has. -/
  | size (n : Nat)

/-- The wording of a fault. -/
def MemoryFault.message : MemoryFault → String
  | .address a => "Address out of range 0-99: " ++ a.display
  | .value v => "Cell value out of range 0-999: " ++ v.display
  | .size n => "Image has " ++ Text.natural n ++ " cells, memory holds 100"

/-- The address that the argument is, or its rejection. -/
def Argument.toAddress (a : Argument) : Except MemoryFault Address :=
  match a.address? with
  | some x => .ok x
  | none => .error (.address a)

/-- The cell that the argument is, or its rejection. -/
def Argument.toCell (v : Argument) : Except MemoryFault Cell :=
  match v.cell? with
  | some x => .ok x
  | none => .error (.value v)

namespace Memory

/-- The cell at an address from outside. -/
def readAt (m : Memory) (a : Argument) : Except MemoryFault Cell :=
  a.toAddress.map m.read

/-- The memory after a write from outside.  The address is checked before the value. -/
def writeAt (m : Memory) (a v : Argument) : Except MemoryFault Memory := do
  let x ← a.toAddress
  let c ← v.toCell
  return m.write x c

/-- A memory that holds the values from address 0 on.  Their number is checked first, then each
of them in order. -/
def ofValues (vs : List Argument) : Except MemoryFault Memory :=
  if vs.length ≤ 100 then (vs.mapM Argument.toCell).map ofList else .error (.size vs.length)

end Memory
end MinionComputer
