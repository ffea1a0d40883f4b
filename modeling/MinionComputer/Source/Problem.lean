/-
# Problems in a source text

Each problem is a cause, the number of the line it is on and that line.  Line numbers count from
one; the number zero says that the problem is not on a line.

* `Cause`: everything that can be wrong, and its wording;
* `Problem`: a cause at a line;
* `Raised`: what is raised for a problem, or for several.
-/
import MinionComputer.Instruction.Basic

namespace MinionComputer
namespace Source

/-- What is wrong. -/
inductive Cause where
  /-- More than three words. -/
  | tooManyWords (n : Nat)
  /-- Two instruction words where one may stand. -/
  | severalInstructions (first second : List Char)
  /-- A word after the operand. -/
  | unexpectedWord (w : List Char)
  /-- A number where a label or an instruction may stand. -/
  | numberAsLabel (w : List Char)
  /-- Neither an instruction nor a label. -/
  | invalidLabel (w : List Char)
  /-- No instruction where one must stand. -/
  | unknownInstruction (w : List Char)
  | operandMissing (m : Mnemonic)
  | operandUnwanted (m : Mnemonic) (w : List Char)
  /-- The mark of extended mode anywhere but at address 0. -/
  | misplacedMark
  /-- Neither a number nor a label. -/
  | invalidOperand (w : List Char)
  | duplicateLabel (w : List Char) (first : Address)
  | undefinedLabel (w : List Char)
  | addressRange (value : Int)
  | dataRange (value : Int)
  /-- More than a hundred statements. -/
  | programTooLarge
  /-- An extended instruction while those are off. -/
  | extensionOff (m : Mnemonic)
  /-- In a list of numbers, something else. -/
  | notANumber (w : List Char)
  /-- In a list of numbers, one that is no cell. -/
  | numberRange (value : Nat)
  /-- In a list of numbers, more than a hundred. -/
  | tooManyNumbers
  deriving DecidableEq, Repr

/-- The wording of a cause. -/
def Cause.message : Cause → String
  | .tooManyWords n =>
    "Too many words (" ++ Text.natural n ++ "); expected [label] mnemonic [operand]"
  | .severalInstructions a b =>
    "Multiple instructions on one line: " ++ String.ofList a ++ " " ++ String.ofList b
  | .unexpectedWord w => "Unexpected word after operand: " ++ String.ofList w
  | .numberAsLabel w => "Expected a label or instruction, got number " ++ String.ofList w
  | .invalidLabel w => "Invalid label: " ++ String.ofList w
  | .unknownInstruction w => "Unknown instruction: " ++ String.ofList w
  | .operandMissing m => m.name ++ " requires an address operand"
  | .operandUnwanted m w => m.name ++ " takes no operand, got " ++ String.ofList w
  | .misplacedMark => "EXT must be the first statement (address 0)"
  | .invalidOperand w => "Invalid operand: " ++ String.ofList w
  | .duplicateLabel w a =>
    "Duplicate label '" ++ String.ofList w ++ "' (first defined at address " ++
      Text.natural a.val ++ ")"
  | .undefinedLabel w => "Undefined label: " ++ String.ofList w
  | .addressRange v => "Address out of range 0-99: " ++ Text.integer v
  | .dataRange v => "DAT value out of range 0-999: " ++ Text.integer v
  | .programTooLarge => "Program exceeds 100 statements"
  | .extensionOff m => m.name ++ " requires extended mode"
  | .notANumber w => "Expected a number 0-999, got '" ++ String.ofList w ++ "'"
  | .numberRange v => "Value out of range 0-999: " ++ Text.natural v
  | .tooManyNumbers => "More than 100 numbers"

/-- Why a word has no value: it is wrong, or it has so many digits, more than are read. -/
inductive ValueFault where
  | cause (c : Cause)
  | tooLong (digits : Nat)
  deriving DecidableEq, Repr

/-- A message with the number of its line in front, if it is on a line. -/
def atLine (line : Int) (message : String) : String :=
  if line = 0 then message else "Line " ++ Text.integer line ++ ": " ++ message

/-- A cause, the number of its line and the line without the blanks at its ends. -/
structure Problem where
  cause : Cause
  line : Int
  text : List Char
  deriving DecidableEq, Repr

/-- The wording of a problem. -/
def Problem.message (p : Problem) : String := atLine p.line p.cause.message

/-- An error as it is raised: its cause, unless it does nothing but list several problems, its
wording, its line, and the problems that it lists. -/
structure Raised where
  cause : Option Cause
  message : String
  line : Int
  text : List Char
  listed : List Problem
  deriving DecidableEq, Repr

/-- A problem that is raised itself. -/
def Problem.raised (p : Problem) : Raised := ⟨some p.cause, p.message, p.line, p.text, []⟩

end Source
end MinionComputer
