/-
# UTF-8

Bytes are decoded one at a time.  Between bytes the decoder knows what the character it is in the
middle of still needs, so a text may also arrive in parts.  A byte that cannot be there is a
fault, reported with the bytes of the character it breaks.

* `decodePart`: the characters in a row of bytes, and the bytes at its end that begin a further
  one;
* `decode`: a whole text, which may not end inside a character;
* `encode`: the bytes of a text;
* `Fault.message`: the wording of a fault.
-/
import MinionComputer.Text.Numeral
import MinionComputer.Text.Quoted

namespace MinionComputer
namespace Text
namespace Utf8

/-! ## 1. Faults -/

/-- What is wrong with a row of bytes. -/
inductive Reason where
  /-- No character begins with the byte. -/
  | invalidStart
  /-- The byte after these does not continue their character. -/
  | invalidContinuation
  /-- The text ends inside a character. -/
  | unexpectedEnd
  deriving DecidableEq, Repr

/-- The wording of a reason. -/
def Reason.message : Reason → String
  | .invalidStart => "invalid start byte"
  | .invalidContinuation => "invalid continuation byte"
  | .unexpectedEnd => "unexpected end of data"

/-- A place where the bytes are not UTF-8: `width` bytes from position `start`, beginning with
`first`. -/
structure Fault where
  start : Nat
  width : Nat
  first : UInt8
  reason : Reason
  deriving DecidableEq, Repr

/-- The wording of a fault. -/
def Fault.message (f : Fault) : String :=
  let place :=
    if f.width = 1 then
      "byte 0x" ++ String.ofList (hexadecimal 2 f.first.toNat) ++ " in position " ++ natural f.start
    else
      "bytes in position " ++ natural f.start ++ "-" ++ natural (f.start + f.width - 1)
  "'utf-8' codec can't decode " ++ place ++ ": " ++ f.reason.message

/-! ## 2. Decoding -/

/-- A character of which the bytes `taken` have been read: how many more it needs, between which
bounds the next one must lie, and the bits read so far. -/
structure Unfinished where
  taken : List UInt8
  owed : Nat
  low : Nat
  high : Nat
  bits : Nat
  deriving DecidableEq, Repr

/-- What a byte begins. -/
inductive Opening where
  | whole (c : Char)
  | part (u : Unfinished)
  | never

/-- What `b` begins.  The bounds on the second byte keep out the forms that are longer than need
be, the surrogates, and what lies past the last code point. -/
def Opening.ofByte (b : UInt8) : Opening :=
  let n := b.toNat
  if n < 0x80 then .whole (Char.ofNat n)
  else if n < 0xC2 then .never
  else if n < 0xE0 then .part ⟨[b], 1, 0x80, 0xBF, n - 0xC0⟩
  else if n < 0xF0 then
    .part ⟨[b], 2, if n = 0xE0 then 0xA0 else 0x80, if n = 0xED then 0x9F else 0xBF, n - 0xE0⟩
  else if n < 0xF5 then
    .part ⟨[b], 3, if n = 0xF0 then 0x90 else 0x80, if n = 0xF4 then 0x8F else 0xBF, n - 0xF0⟩
  else .never

/-- The fault of a character that is broken off after the bytes taken. -/
def Unfinished.fault (u : Unfinished) (start : Nat) (reason : Reason) : Fault :=
  ⟨start, u.taken.length, u.taken.headD 0, reason⟩

/-- The characters in the bytes, the first of which is at position `pos`, and the bytes of an
unfinished character at the end. -/
def decodeFrom (pos : Nat) : Option Unfinished → List UInt8 →
    Except Fault (List Char × List UInt8)
  | none, [] => .ok ([], [])
  | some u, [] => .ok ([], u.taken)
  | none, b :: r =>
    match Opening.ofByte b with
    | .whole c => (decodeFrom (pos + 1) none r).map fun x => (c :: x.1, x.2)
    | .part u => decodeFrom (pos + 1) (some u) r
    | .never => .error ⟨pos, 1, b, .invalidStart⟩
  | some u, b :: r =>
    if u.low ≤ b.toNat ∧ b.toNat ≤ u.high then
      let bits := u.bits * 64 + (b.toNat - 0x80)
      if u.owed = 1 then
        (decodeFrom (pos + 1) none r).map fun x => (Char.ofNat bits :: x.1, x.2)
      else decodeFrom (pos + 1) (some ⟨u.taken ++ [b], u.owed - 1, 0x80, 0xBF, bits⟩) r
    else .error (u.fault (pos - u.taken.length) .invalidContinuation)

/-- The characters in a part of a text, and the bytes at its end that begin a further one.  The
first two bytes of a surrogate are left for the next part to refuse. -/
def decodePart (bs : List UInt8) : Except Fault (List Char × List UInt8) :=
  match decodeFrom 0 none bs with
  | .error f =>
    if f.first = 0xED ∧ f.reason = .invalidContinuation ∧ f.start + 2 = bs.length ∧
        (bs.drop (f.start + 1)).all (fun b => 0xA0 ≤ b.toNat && b.toNat ≤ 0xBF) then
      (decodeFrom 0 none (bs.take f.start)).map fun x => (x.1, bs.drop f.start)
    else .error f
  | r => r

/-- The characters of a whole text. -/
def decode (bs : List UInt8) : Except Fault (List Char) :=
  match decodeFrom 0 none bs with
  | .error f => .error f
  | .ok (cs, []) => .ok cs
  | .ok (_, b :: r) =>
    .error ⟨bs.length - (r.length + 1), r.length + 1, b, .unexpectedEnd⟩

/-! ## 3. Encoding -/

/-- The bytes of a text. -/
def encode (cs : List Char) : List UInt8 := cs.flatMap String.utf8EncodeChar

end Utf8
end Text
end MinionComputer
