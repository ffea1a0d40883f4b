/-
# Typescripts

A typescript is what someone types: lines of blanks, tabs and printable characters of ASCII, each
with a line feed behind it.  It is given as a text, or as bytes, one for each character.  Some of
its lines hold a number from 0 to 999.

* `Text.isTypeable`, `Text.asciiBytes`: the characters, and their bytes;
* `Text.lineNumber?`, `Text.numberLines`: the number on a line, and numbers written as lines;
* `Typescript`: lines of such characters;
* `Typescript.splitAt_text`: the lines are those of the text.
-/
import MinionComputer.Proofs.Text.Decimal
import MinionComputer.Proofs.Text.Pieces

namespace MinionComputer
namespace Text

variable {c : Char} {cs : List Char}

/-! ## 1. Characters -/

/-- Whether `c` is a tab, a blank or a printable character of ASCII. -/
def isTypeable (c : Char) : Bool :=
  let n := c.toNat
  n == 9 || (32 ≤ n && n ≤ 126)

theorem isTypeable_iff : isTypeable c = true ↔ c.toNat = 9 ∨ 32 ≤ c.toNat ∧ c.toNat ≤ 126 := by
  simp [isTypeable]

/-- A line feed is not typed in a line; it ends it. -/
theorem ne_lineFeed_of_isTypeable (h : isTypeable c = true) : c ≠ '\n' := by
  rintro rfl
  exact Bool.noConfusion h

/-- The blanks that are typed may all stand around a numeral. -/
theorem isBlank_eq_isMargin (h : isTypeable c = true) : isBlank c = isMargin c := by
  rw [isTypeable_iff] at h
  have hseparator : (decide (28 ≤ c.toNat) && decide (c.toNat ≤ 31)) = false := by
    simp only [Bool.and_eq_false_iff, decide_eq_false_iff_not]
    omega
  rw [isMargin, hseparator, Bool.not_false, Bool.and_true]

/-- Only the tab and the space are blank. -/
theorem isMargin_iff_of_isTypeable (h : isTypeable c = true) :
    isMargin c = true ↔ c.toNat = 9 ∨ c.toNat = 32 := by
  rw [← isBlank_eq_isMargin h]
  rw [isTypeable_iff] at h
  simp only [isBlank, Bool.or_eq_true, Bool.and_eq_true, decide_eq_true_eq, beq_iff_eq]
  omega

/-- Plain digits are typed. -/
theorem Decimal.isTypeable {ds : List Char} (h : Decimal ds) :
    ∀ c ∈ ds, Text.isTypeable c = true := by
  intro c hc
  have hrange : 48 ≤ c.toNat ∧ c.toNat ≤ 57 := Char.isDigit_iff_toNat.mp (h.plain c hc)
  rw [isTypeable_iff]
  omega

/-! ## 2. Bytes -/

/-- One byte for each character of ASCII. -/
def asciiBytes (cs : List Char) : List UInt8 := cs.map (·.toNat.toUInt8)

theorem asciiBytes_append (cs ds : List Char) :
    asciiBytes (cs ++ ds) = asciiBytes cs ++ asciiBytes ds :=
  List.map_append

theorem toNat_byte_of_isTypeable (h : isTypeable c = true) : c.toNat.toUInt8.toNat = c.toNat := by
  rw [isTypeable_iff] at h
  rw [Nat.toUInt8, UInt8.toNat_ofNat']
  exact Nat.mod_eq_of_lt (by omega)

/-- The bytes give back the characters. -/
theorem map_asciiBytes (h : ∀ c ∈ cs, isTypeable c = true) :
    (asciiBytes cs).map (fun b => Char.ofNat b.toNat) = cs := by
  have hback : ∀ c ∈ cs, Char.ofNat c.toNat.toUInt8.toNat = c := by
    intro c hc
    rw [toNat_byte_of_isTypeable (h c hc), Char.ofNat_toNat]
  rw [asciiBytes, List.map_map]
  exact (List.map_congr_left hback).trans (List.map_id cs)

/-- No line feed is among the bytes. -/
theorem lineFeed_not_mem_asciiBytes (h : ∀ c ∈ cs, isTypeable c = true) : 10 ∉ asciiBytes cs := by
  intro hmem
  obtain ⟨c, hc, hbyte⟩ := List.mem_map.mp hmem
  have hcode : c.toNat = 10 := by
    rw [← toNat_byte_of_isTypeable (h c hc), hbyte]
    rfl
  have hc' := isTypeable_iff.mp (h c hc)
  omega

/-! ## 3. Numbers on lines -/

/-- The number on a line, if there is one from 0 to 999. -/
def lineNumber? (line : List Char) : Option Int :=
  match readInteger line with
  | .error _ => none
  | .ok n => if 0 ≤ n ∧ n ≤ 999 then some n else none

/-- A number on a line of its own. -/
def numberLine (n : Int) : List Char := minusSign n ++ decimal n.natAbs ++ ['\n']

/-- Numbers, each on a line of its own. -/
def numberLines (ns : List Int) : List Char := ns.flatMap numberLine

theorem numberLines_append_singleton (ns : List Int) (n : Int) :
    numberLines (ns ++ [n]) = numberLines ns ++ numberLine n := by
  simp [numberLines]

end Text

/-! ## 4. Lines that can be typed -/

/-- Lines that can be typed. -/
structure Typescript where
  lines : List (List Char)
  typeable : ∀ l ∈ lines, ∀ c ∈ l, Text.isTypeable c = true

namespace Typescript

variable (t : Typescript)

/-- The lines with a line feed behind each. -/
def text : List Char := t.lines.flatMap (· ++ ['\n'])

/-- The text as bytes. -/
def bytes : List UInt8 := Text.asciiBytes t.text

/-- The numbers on the lines. -/
def numbers : List Int := t.lines.filterMap Text.lineNumber?

/-- **The lines of the text are the lines**, and nothing stands behind the last. -/
theorem splitAt_text : Text.splitAt '\n' t.text = t.lines ++ [[]] := by
  refine Text.pieces_flatMap (by decide) ?_
  intro l hl c hc
  exact beq_false_of_ne (Text.ne_lineFeed_of_isTypeable (t.typeable l hl c hc))

end Typescript
end MinionComputer
