/-
# Cutting a text into pieces, words and lines

`pieces p` cuts a text at every character that satisfies `p` and drops those characters, so there
is always one piece more than there are cuts.  The other two ways of cutting are made from it:

* `words`: the pieces between blanks that are not empty;
* `lines`: the pieces between line ends, where an end of line at the end of the text starts no
  further line, and a carriage return with the line feed after it is one end.
-/
import MinionComputer.Text.Blank

namespace MinionComputer
namespace Text

/-! ## 1. Pieces -/

/-- The parts of the text between the characters that satisfy `p`. -/
def pieces (p : Char → Bool) : List Char → List (List Char)
  | [] => [[]]
  | c :: r =>
    if p c then [] :: pieces p r
    else match pieces p r with
      | [] => [[c]]
      | w :: ws => (c :: w) :: ws

/-- A text has at least one piece. -/
theorem pieces_ne_nil (p : Char → Bool) (cs : List Char) : pieces p cs ≠ [] := by
  cases cs with
  | nil => simp [pieces]
  | cons c r =>
    simp only [pieces]
    split
    · simp
    · split <;> simp

/-- The parts of the text between occurrences of `c`. -/
def splitAt (c : Char) (cs : List Char) : List (List Char) := pieces (· == c) cs

/-- The words of a text: its non-empty parts between blanks. -/
def words (cs : List Char) : List (List Char) :=
  (pieces isBlank cs).filter (!·.isEmpty)

/-! ## 2. Lines -/

/-- Whether `c` ends a line. -/
def isLineEnd (c : Char) : Bool :=
  let n := c.toNat
  (10 ≤ n && n ≤ 13) || (28 ≤ n && n ≤ 30) || n == 0x85 || n == 0x2028 || n == 0x2029

/-- The text with each carriage return, and each carriage return and line feed together, written
as one line feed.  `afterReturn` tells that the character before was a carriage return. -/
def unifyFrom (afterReturn : Bool) : List Char → List Char
  | [] => []
  | c :: r =>
    if c == '\r' then '\n' :: unifyFrom true r
    else if c == '\n' && afterReturn then unifyFrom false r
    else c :: unifyFrom false r

/-- The text with line feeds for the line ends of other systems. -/
def unifyLineEnds (cs : List Char) : List Char := unifyFrom false cs

/-- The list without its last element when that is empty. -/
def dropEmptyLast (ls : List (List Char)) : List (List Char) :=
  if ls.getLast? = some [] then ls.dropLast else ls

/-- The lines of a text, without their ends. -/
def lines (cs : List Char) : List (List Char) :=
  dropEmptyLast (pieces isLineEnd (unifyLineEnds cs))

@[simp] theorem lines_nil : lines [] = [] := rfl

/-- The elements of a list beside their positions, counted from one. -/
def numbered {α : Type} (l : List α) : List (Nat × α) :=
  l.zipIdx.map fun x => (x.2 + 1, x.1)

/-- The texts joined by `c`. -/
def joinWith (c : Char) : List (List Char) → List Char
  | [] => []
  | [l] => l
  | l :: ls => l ++ c :: joinWith c ls

end Text
end MinionComputer
