/-
# Blanks and trimming

A character is blank when it separates words: the Unicode spaces, the tab and the line ends, and
the four separators that ASCII has just below the space.  Trimming removes blanks from the ends
of a text and never from its middle.

* `isBlank`: the blanks, as code points;
* `trimBy`, `trim`: a text without the marked characters at its two ends;
* `isMargin`: the blanks that may surround a numeral.
-/
namespace MinionComputer
namespace Text

/-! ## 1. Which characters are blank -/

/-- Whether `c` separates words. -/
def isBlank (c : Char) : Bool :=
  let n := c.toNat
  (9 ≤ n && n ≤ 13) || (28 ≤ n && n ≤ 32) || n == 0x85 || n == 0xA0 || n == 0x1680 ||
    (0x2000 ≤ n && n ≤ 0x200A) || n == 0x2028 || n == 0x2029 || n == 0x202F || n == 0x205F ||
    n == 0x3000

/-- The blanks that may stand around a numeral: all but the four ASCII separators. -/
def isMargin (c : Char) : Bool :=
  isBlank c && !(28 ≤ c.toNat && c.toNat ≤ 31)

/-! ## 2. Trimming -/

/-- The list without its last elements that satisfy `p`. -/
def dropEnd {α : Type} (p : α → Bool) (l : List α) : List α :=
  (l.reverse.dropWhile p).reverse

/-- The list without its first and last elements that satisfy `p`. -/
def trimBy {α : Type} (p : α → Bool) (l : List α) : List α :=
  dropEnd p (l.dropWhile p)

/-- The text without the blanks at its ends. -/
def trim (cs : List Char) : List Char := trimBy isBlank cs

@[simp] theorem trim_nil : trim [] = [] := rfl

end Text
end MinionComputer
