/-
# Quoted texts

A text or a row of bytes inside a message stands between quotation marks and shows every
character that does not print as an escape.  The mark is the apostrophe, or the double quote when
the text holds apostrophes and no double quote.

* `quotationMark`: the mark to use;
* `quotedChars`, `quoted`: a text;
* `quotedBytes`: a row of bytes, of which only printable ASCII shows as itself.
-/
import MinionComputer.Text.Printable

namespace MinionComputer
namespace Text

/-! ## 1. Escapes -/

/-- `n` in hexadecimal, in a field of `width` digits. -/
def hexadecimal (width n : Nat) : List Char :=
  let digits := Nat.toDigits 16 n
  List.replicate (width - digits.length) '0' ++ digits

/-- The escape of a code point by its number. -/
def numberedEscape (n : Nat) : List Char :=
  if n ≤ 0xFF then '\x5c' :: 'x' :: hexadecimal 2 n
  else if n ≤ 0xFFFF then '\x5c' :: 'u' :: hexadecimal 4 n
  else '\x5c' :: 'U' :: hexadecimal 8 n

/-- The escapes that have a letter. -/
def letterEscape? (n : Nat) : Option (List Char) :=
  if n = 9 then some ['\x5c', 't']
  else if n = 10 then some ['\x5c', 'n']
  else if n = 13 then some ['\x5c', 'r']
  else none

/-- The mark to quote a text with, given whether it holds each of the two. -/
def quotationMark (apostrophe double : Bool) : Char :=
  if apostrophe && !double then '\x22' else '\x27'

/-! ## 2. Texts -/

/-- `c` inside a text quoted with `mark`. -/
def escapeChar (mark c : Char) : List Char :=
  if c == mark || c == '\x5c' then ['\x5c', c]
  else match letterEscape? c.toNat with
    | some e => e
    | none => if isPrintable c then [c] else numberedEscape c.toNat

/-- The text between quotation marks. -/
def quotedChars (cs : List Char) : List Char :=
  let mark := quotationMark (cs.contains '\x27') (cs.contains '\x22')
  mark :: cs.flatMap (escapeChar mark) ++ [mark]

/-- The text between quotation marks, as a string. -/
def quoted (cs : List Char) : String := String.ofList (quotedChars cs)

/-- The character of a code between quotation marks; a code of which there is no character, since
it stands for half of one, shows as its number. -/
def quotedCode (n : Nat) : String :=
  if 0xD800 ≤ n && n ≤ 0xDFFF then String.ofList ('\x27' :: numberedEscape n ++ ['\x27'])
  else quoted [Char.ofNat n]

/-! ## 3. Bytes -/

/-- The byte `b` inside a row quoted with `mark`. -/
def escapeByte (mark : Char) (b : UInt8) : List Char :=
  let c := Char.ofNat b.toNat
  if c == mark || c == '\x5c' then ['\x5c', c]
  else match letterEscape? b.toNat with
    | some e => e
    | none => if 32 ≤ b.toNat && b.toNat < 127 then [c] else numberedEscape b.toNat

/-- The bytes between quotation marks, with a `b` in front. -/
def quotedBytes (bs : List UInt8) : String :=
  let mark := quotationMark (bs.contains 0x27) (bs.contains 0x22)
  String.ofList ('b' :: mark :: bs.flatMap (escapeByte mark) ++ [mark])

end Text
end MinionComputer
