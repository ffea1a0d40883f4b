/-
# Lists of numbers

A memory may be given as numbers, one a line, with comments and empty lines between.  The first
line that is wrong decides what is said.

* `NumberList.cells`: the numbers of a text, or what is wrong with it;
* `NumberList.toMemory`: the memory that holds them from address 0 on.
-/
import MinionComputer.Source.Statement
import MinionComputer.Memory.Basic
import MinionComputer.Note

namespace MinionComputer
namespace NumberList

/-- Why a text is no list of numbers: a problem on a line, or a numeral of too many digits. -/
inductive Fault where
  | problem (p : Source.Problem)
  | tooLong (digits : Nat)
  deriving DecidableEq, Repr

/-- What a line has to say: the text before any comment without the blanks at its ends. -/
def content (line : List Char) : List Char := Text.trim (Source.splitComment line).1

/-- The number that the content of a line stands for, when `count` numbers came before it. -/
def number (count : Nat) (content : List Char) : Except Source.ValueFault Cell :=
  match Text.readNatural content with
  | .error .malformed => .error (.cause (.notANumber content))
  | .error (.tooLong digits) => .error (.tooLong digits)
  | .ok value =>
    if h : value < 1000 then
      if count = 100 then .error (.cause .tooManyNumbers) else .ok ⟨value, h⟩
    else .error (.cause (.numberRange value))

/-- The numbers on the lines, when `count` came before them. -/
def cells : (count : Nat) → List (Nat × List Char) → Except Fault (List Cell)
  | _, [] => .ok []
  | count, (line, raw) :: rest =>
    if (content raw).isEmpty then cells count rest
    else match number count (content raw) with
      | .ok c => (cells (count + 1) rest).map (c :: ·)
      | .error (.cause cause) => .error (.problem ⟨cause, line, Text.trim raw⟩)
      | .error (.tooLong digits) => .error (.tooLong digits)

/-- The numbers of a text. -/
def ofText (text : List Char) : Except Fault (List Cell) :=
  cells 0 (Text.numbered (Text.lines text))

/-- The memory that a list of numbers stands for. -/
def toMemory (text : List Char) : Except Fault Memory := (ofText text).map Memory.ofList

/-- The channel of the notes on lists of numbers. -/
def channel : String := "lmc_assembler.numbers"

/-- What is noted about a list of numbers. -/
def notes (text : List Char) : List Note :=
  match ofText text with
  | .ok l => [⟨.debug, channel, "Loaded " ++ Text.natural l.length ++ " numbers"⟩]
  | .error _ => []

/-- The wording of a fault. -/
def Fault.message : Fault → String
  | .problem p => p.message
  | .tooLong digits => Text.tooLongMessage digits

end NumberList
end MinionComputer
