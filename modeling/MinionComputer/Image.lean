/-
# Memory images

An image is a memory as bytes: a hundred fields of ten bits, the highest bit first, without the
zero bytes at the end.

* `bits`, `ofBits`: numbers of a fixed width and their bits;
* `Image.ofMemory`: the image of a memory;
* `Image.fields`: the hundred fields of a row of bytes;
* `Image.toMemory`: the memory of an image, if it is short enough and each field is a cell.
-/
import MinionComputer.Memory.Basic
import MinionComputer.Note

namespace MinionComputer

/-! ## 1. Bits -/

/-- The lowest `width` bits of a number, the highest of them first. -/
def bits : (width : Nat) → Nat → List Bool
  | 0, _ => []
  | w + 1, n => n.testBit w :: bits w n

/-- The number with these bits, the highest first. -/
def ofBits (l : List Bool) : Nat := l.foldl (fun n b => 2 * n + b.toNat) 0

/-- The first `count` groups of `width` elements. -/
def groups {α : Type} (width : Nat) : (count : Nat) → List α → List (List α)
  | 0, _ => []
  | n + 1, l => l.take width :: groups width n (l.drop width)

@[simp] theorem length_bits (w n : Nat) : (bits w n).length = w := by
  induction w with
  | zero => rfl
  | succ w ih => simp [bits, ih]

@[simp] theorem length_groups {α : Type} (width count : Nat) (l : List α) :
    (groups width count l).length = count := by
  induction count generalizing l with
  | zero => rfl
  | succ n ih => simp [groups, ih]

/-! ## 2. Images -/

namespace Image

/-- The most bytes an image may have. -/
def maxSize : Nat := 125

/-- All 125 bytes of a memory. -/
def packed (m : Memory) : List UInt8 :=
  (groups 8 maxSize (m.toList.flatMap fun c => bits 10 c.val)).map fun g => (ofBits g).toUInt8

/-- The image of a memory. -/
def ofMemory (m : Memory) : List UInt8 := Text.dropEnd (· == 0) (packed m)

/-- The bytes with zeros behind them, up to 125. -/
def padded (bs : List UInt8) : List UInt8 := bs ++ List.replicate (maxSize - bs.length) 0

/-- The hundred fields of a row of bytes. -/
def fields (bs : List UInt8) : List Nat :=
  (groups 10 100 ((padded bs).flatMap fun b => bits 8 b.toNat)).map ofBits

/-- Why bytes are no image. -/
inductive Fault where
  /-- There are more than 125. -/
  | size (n : Nat)
  /-- A field is larger than a cell. -/
  | field (address : Nat) (value : Nat)
  deriving DecidableEq, Repr

/-- The wording of a fault. -/
def Fault.message : Fault → String
  | .size n => "Image is " ++ Text.natural n ++ " bytes, maximum is 125"
  | .field a v =>
    "Cell " ++ Text.field 2 (a : Int) ++ " holds " ++ Text.natural v ++ ", maximum is 999"

/-- The fields as cells; the first that is too large is reported with its address. -/
def cells : (address : Nat) → List Nat → Except Fault (List Cell)
  | _, [] => .ok []
  | a, v :: r =>
    if h : v < 1000 then (cells (a + 1) r).map (⟨v, h⟩ :: ·) else .error (.field a v)

/-- The memory of an image. -/
def toMemory (bs : List UInt8) : Except Fault Memory :=
  if maxSize < bs.length then .error (.size bs.length)
  else (cells 0 (fields bs)).map Memory.ofList

/-- The channel of the notes on images. -/
def channel : String := "lmc_emulator.image"

/-- The note that an image was written. -/
def savedNote (bs : List UInt8) (path : String) : Note :=
  ⟨.debug, channel, "Saved " ++ Text.natural bs.length ++ "-byte image to " ++ path⟩

/-- The note that an image was read. -/
def loadedNote (bs : List UInt8) (path : String) : Note :=
  ⟨.debug, channel, "Loaded " ++ Text.natural bs.length ++ "-byte image from " ++ path⟩

end Image
end MinionComputer
