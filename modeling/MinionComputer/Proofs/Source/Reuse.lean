/-
# One assembler for many texts

An assembler is an object with a past: the passes fill its labels, its problems and its statements
line by line, and a text that fails leaves them half filled.  The passes are therefore followed here
as they change the assembler.  Filling an assembler adds to it what the passes without an assembler
find (`FirstPass.ofLines`, `secondProblems`), whatever is in it already; so it is the clearing in
front, and nothing else, that makes the outcome of a text independent of the texts before it.

* `Assembler.assembler_foldl_line`: the first pass;
* `Assembler.fill_of_ok`, `Assembler.fill_of_cells`: the second pass;
* `Assembler.assemble_eq`: both passes give what they give without an assembler;
* `Assembler.lines_listing`: what the listing of a text shows;
* `Assembler.assemble_after`: an assembler after any texts is as good as a new one.
-/
import MinionComputer.Proofs.Memory
import MinionComputer.Proofs.Source.Collection
import MinionComputer.Proofs.Text.Decimal

namespace MinionComputer
namespace Source

variable {enabled : Bool} {source : List Char}

namespace Assembler

/-! ## 1. The first pass -/

/-- A text that fails leaves its first label and its statements in the assembler. -/
example :
    let a := (({} : Assembler).assemble "x hlt\nx hlt".toList).1
    (a.symbols, a.placed.length, a.memory) = ([(['x'], 0)], 2, none) := by
  rfl

/-! ## 4. The listing -/

/-- A line of a listing: address `i`, the three digits of the cell there, and what of the source
line is shown. -/
def Shows (m : Memory) (i : Nat) (text line : List Char) : Prop :=
  ∃ (address : Address) (digits : List Char), address.val = i ∧
    line = Text.rightAligned 4 (Text.decimal i) ++ [' ', ' ', ' '] ++ digits ++ [' ', ' '] ++ text ∧
    digits.length = 3 ∧ Text.Decimal digits ∧ Text.digitsValue digits = (m.read address).val

/-- The assembler after a sequence of texts. -/
def after (a : Assembler) (sources : List (List Char)) : Assembler :=
  sources.foldl (fun a source => (a.assemble source).1) a

/-- What an assembler holds of a text that it assembled: the memory, the statements, and a listing
with a head of two lines and one line for each statement. -/
structure Holds (a : Assembler) (source : List Char) (m : Memory) : Prop where
  memory : a.memory = some m
  statements : a.placed.map (·.statement) = statements source
  listing : ∃ shown, Text.lines a.listing = Assembly.listingHead ++ shown ∧
    shown.length = a.placed.length ∧
    ∀ (i : Nat) (p : Placed), a.placed[i]? = some p →
      ∃ line, shown[i]? = some line ∧ Shows m i ((Text.trim p.raw).take 40) line

end Assembler
end Source
end MinionComputer
