/-
# Reading and writing whole numbers

Two readings are in use.  A *plain numeral* is a row of decimal digits and nothing else.  A
*signed numeral* may have blanks around it, a sign in front and single underscores between its
digits.  Either may have at most `digitLimit` digits.

* `readNatural`, `readInteger`: the two readings;
* `natural`, `integer`: a number in decimal;
* `padded`, `paddedSigned`: a number in a field of given width, filled with zeros.
-/
import MinionComputer.Text.Piece
import MinionComputer.Text.Digit

namespace MinionComputer
namespace Text

/-! ## 1. Reading -/

/-- Why a text is not read as a number. -/
inductive NumeralFault where
  /-- It is not a numeral. -/
  | malformed
  /-- It is a numeral of so many digits, more than are read. -/
  | tooLong (digits : Nat)
  deriving DecidableEq, Repr

/-- The most digits a numeral may have, leading zeros counted. -/
def digitLimit : Nat := 4300

/-- The number that a row of digits stands for. -/
def digitsValue (cs : List Char) : Nat :=
  cs.foldl (fun n c => 10 * n + (digitValue? c).getD 0) 0

/-- Whether the text is a plain numeral. -/
def isNumeral (cs : List Char) : Bool := !cs.isEmpty && cs.all isDigit

/-- The number a row of digits stands for, if it is short enough. -/
def readDigits (cs : List Char) : Except NumeralFault Nat :=
  if cs.length ≤ digitLimit then .ok (digitsValue cs) else .error (.tooLong cs.length)

/-- The number that a plain numeral stands for. -/
def readNatural (cs : List Char) : Except NumeralFault Nat :=
  if isNumeral cs then readDigits cs else .error .malformed

/-- Whether there is a minus sign in front, and what follows the sign. -/
def splitSign : List Char → Bool × List Char
  | '-' :: r => (true, r)
  | '+' :: r => (false, r)
  | r => (false, r)

/-- Whether the text is a sign, if any, and a row of digits. -/
def isSignedNumeral (cs : List Char) : Bool := isNumeral (splitSign cs).2

/-- `n`, or its opposite. -/
def withSign (negative : Bool) (n : Nat) : Int := if negative then -(n : Int) else n

/-- The number that a signed numeral stands for. -/
def readInteger (cs : List Char) : Except NumeralFault Int :=
  let (negative, body) := splitSign (trimBy isMargin cs)
  let groups := splitAt '_' body
  if groups.all isNumeral then (readDigits groups.flatten).map (withSign negative)
  else .error .malformed

/-! ## 2. Writing -/

/-- `n` in decimal. -/
def decimal (n : Nat) : List Char := Nat.toDigits 10 n

/-- The minus sign of a negative number. -/
def minusSign (n : Int) : List Char := if n < 0 then ['-'] else []

/-- `n` in a field of `width` characters: the sign, zeros to fill the field, the digits. -/
def paddedWith (sign : List Char) (width : Nat) (n : Int) : List Char :=
  let digits := decimal n.natAbs
  sign ++ List.replicate (width - (sign.length + digits.length)) '0' ++ digits

/-- `n` in a field of `width` characters, filled with zeros after a minus sign. -/
def padded (width : Nat) (n : Int) : List Char := paddedWith (minusSign n) width n

/-- `n` in a field of `width` characters, always with a sign. -/
def paddedSigned (width : Nat) (n : Int) : List Char :=
  paddedWith (if n < 0 then ['-'] else ['+']) width n

/-- `n` in decimal, as a string. -/
def natural (n : Nat) : String := String.ofList (decimal n)

/-- `n` in decimal with a minus sign when it is negative, as a string. -/
def integer (n : Int) : String := String.ofList (minusSign n ++ decimal n.natAbs)

/-- The wording for a numeral of so many digits. -/
def tooLongMessage (digits : Nat) : String :=
  "Exceeds the limit (" ++ natural digitLimit ++
    " digits) for integer string conversion: value has " ++ natural digits ++
    " digits; use sys.set_int_max_str_digits() to increase the limit"

/-- `padded` as a string. -/
def field (width : Nat) (n : Int) : String := String.ofList (padded width n)

/-- The text in a field of `width` characters, blanks in front. -/
def rightAligned (width : Nat) (cs : List Char) : List Char :=
  List.replicate (width - cs.length) ' ' ++ cs

/-- The text in a field of `width` characters, blanks behind. -/
def leftAligned (width : Nat) (cs : List Char) : List Char :=
  cs ++ List.replicate (width - cs.length) ' '

end Text
end MinionComputer
