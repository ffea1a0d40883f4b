/-
# Lines and statements

A line is code and, behind the first of the marks `#`, `;` and `//`, a comment.  The words of the
code are a statement: an optional label, an instruction word and an optional operand.

* `splitComment`: the code and the comment of a line;
* `isLabel`: the words that may name a place;
* `Statement.ofWords`: the statement that words make up, if they make up one;
* `Line.parse`: all of a line.
-/
import MinionComputer.Source.Problem

namespace MinionComputer
namespace Source

/-! ## 1. Comments -/

/-- What follows the mark of a comment at the very start of the text. -/
def afterMark? : List Char → Option (List Char)
  | '#' :: r => some r
  | ';' :: r => some r
  | '/' :: '/' :: r => some r
  | _ => none

/-- The code of a line, and the comment behind the first mark without the blanks at its ends. -/
def splitComment : List Char → List Char × Option (List Char)
  | [] => ([], none)
  | c :: r =>
    match afterMark? (c :: r) with
    | some comment => ([], some (Text.trim comment))
    | none => (c :: (splitComment r).1, (splitComment r).2)

/-! ## 2. Words -/

/-- Whether `c` is a plain letter or the low line. -/
def isLabelStart (c : Char) : Bool := c.isAlpha || c == '_'

/-- Whether `c` may stand in a label behind its first character. -/
def isLabelPart (c : Char) : Bool := isLabelStart c || c.isDigit

/-- Whether the word may name a place. -/
def isLabel : List Char → Bool
  | [] => false
  | c :: r => isLabelStart c && r.all isLabelPart

/-- Whether the word is an instruction word in some spelling. -/
def isInstruction (w : List Char) : Bool := (Mnemonic.ofWord? w).isSome

/-! ## 3. Statements -/

/-- An instruction word with an operand, perhaps labelled. -/
structure Statement where
  label : Option (List Char) := none
  mnemonic : Mnemonic
  operand : Option (List Char) := none
  deriving DecidableEq, Repr

namespace Statement

/-- The operand, which may not be an instruction word; `first` is the instruction word before
it. -/
def readOperand (first w : List Char) : Except Cause (List Char) :=
  if isInstruction w then .error (.severalInstructions first w) else .ok w

/-- A statement that starts with its instruction word `w`, of which `m` is the meaning. -/
def unlabelled (m : Mnemonic) (w : List Char) : List (List Char) → Except Cause Statement
  | [] => .ok { mnemonic := m }
  | [x] => (readOperand w x).map fun o => { mnemonic := m, operand := some o }
  | x :: y :: _ =>
    if isInstruction x then .error (.severalInstructions w x) else .error (.unexpectedWord y)

/-- A statement that starts with the word `label`, which is no instruction word. -/
def labelled (label : List Char) (rest : List (List Char)) : Except Cause Statement :=
  if Text.isSignedNumeral label then .error (.numberAsLabel label)
  else if !isLabel label then .error (.invalidLabel label)
  else match rest with
    | [] => .error (.unknownInstruction label)
    | w :: operands =>
      match Mnemonic.ofWord? w with
      | none => .error (.unknownInstruction w)
      | some m =>
        match operands with
        | [] => .ok { label := some label, mnemonic := m }
        | x :: _ =>
          (readOperand w x).map fun o => { label := some label, mnemonic := m, operand := some o }

/-- An address instruction must have an operand, a data word may have one, and the others may
not. -/
def checkOperand (s : Statement) : Except Cause Statement :=
  match s.mnemonic.form, s.operand with
  | .address, none => .error (.operandMissing s.mnemonic)
  | .none, some w => .error (.operandUnwanted s.mnemonic w)
  | _, _ => .ok s

/-- The statement that the words make up; no words make up none. -/
def ofWords : List (List Char) → Except Cause (Option Statement)
  | [] => .ok none
  | w :: rest =>
    if 2 < rest.length then .error (.tooManyWords (rest.length + 1))
    else
      let shape := match Mnemonic.ofWord? w with
        | some m => unlabelled m w rest
        | none => labelled w rest
      (shape.bind checkOperand).map some

end Statement

/-! ## 4. Lines -/

/-- A line of a source text, read. -/
structure Line where
  statement : Option Statement
  comment : Option (List Char)
  number : Int
  raw : List Char
  deriving DecidableEq, Repr

/-- Reads line `number`. -/
def Line.parse (number : Int) (raw : List Char) : Except Problem Line :=
  let (code, comment) := splitComment raw
  match Statement.ofWords (Text.words code) with
  | .ok statement => .ok ⟨statement, comment, number, raw⟩
  | .error cause => .error ⟨cause, number, Text.trim raw⟩

end Source
end MinionComputer
