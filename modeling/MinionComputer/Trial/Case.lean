/-
# Test cases

A test case is a line of four or six fields with semicolons between: a name, numbers to give,
numbers to expect, characters to give and to expect if there are six, and the most steps to take.

* `Case.ofLine`: the case on a line;
* `Case.ofText`: the cases of a file, whose blank lines and lines with `#` in front are skipped;
* `Fault`: why a line is no case.
-/
import MinionComputer.Source.Problem
import MinionComputer.Text.Quoted

namespace MinionComputer
namespace Trial

/-! ## 1. Cases and faults -/

/-- What to give a program and what to expect of it. -/
structure Case where
  name : Option (List Char) := none
  inputs : List Int := []
  outputs : List Int := []
  characterInputs : List Int := []
  characterOutputs : List Int := []
  maxSteps : Int := 1000
  deriving DecidableEq, Repr

/-- Which side of a program a field is about. -/
inductive Side where
  | input
  | output
  deriving DecidableEq, Repr

/-- The name of a side. -/
def Side.name : Side → String
  | .input => "input"
  | .output => "output"

/-- What is wrong with a line. -/
inductive Cause where
  /-- It has neither four nor six fields. -/
  | sections (n : Nat)
  /-- The last field is no number. -/
  | steps (w : List Char)
  /-- The last field is a number below zero. -/
  | negativeSteps (n : Int)
  /-- An item of a field of numbers is none from 0 to 999. -/
  | number (side : Side) (w : List Char)
  /-- A character has a code above 255. -/
  | character (side : Side) (c : Char)
  deriving DecidableEq, Repr

/-- The wording of a cause. -/
def Cause.message : Cause → String
  | .sections n => "Expected 4 or 6 ';'-separated sections, got " ++ Text.natural n
  | .steps w => "Invalid maximum steps: " ++ Text.quoted w
  | .negativeSteps n => "Invalid maximum steps: " ++ Text.integer n
  | .number side w => "Invalid " ++ side.name ++ " number: " ++ Text.quoted w
  | .character side c => "Invalid " ++ side.name ++ " character: " ++ Text.quoted [c]

/-- Why a line is no case: a cause at a line, or a numeral of too many digits. -/
inductive Fault where
  | cause (c : Cause) (line : Int)
  | tooLong (digits : Nat)
  deriving DecidableEq, Repr

/-- The wording of a fault. -/
def Fault.message : Fault → String
  | .cause c line => Source.atLine line c.message
  | .tooLong digits => Text.tooLongMessage digits

/-! ## 2. Fields -/

/-- The number that an item of a field stands for. -/
def numberOfItem (side : Side) (line : Int) (item : List Char) : Except Fault Int :=
  match Text.readNatural item with
  | .ok n => if n ≤ 999 then .ok n else .error (.cause (.number side item) line)
  | .error .malformed => .error (.cause (.number side item) line)
  | .error (.tooLong digits) => .error (.tooLong digits)

/-- The numbers of a field, with commas between; items that are blank are skipped. -/
def numbersOfField (side : Side) (line : Int) (field : List Char) : Except Fault (List Int) :=
  (((Text.splitAt ',' field).map Text.trim).filter (!·.isEmpty)).mapM (numberOfItem side line)

/-- The code of a character, if it fits eight bits. -/
def codeOfCharacter (side : Side) (line : Int) (c : Char) : Except Fault Int :=
  if c.toNat ≤ 255 then .ok (c.toNat : Int) else .error (.cause (.character side c) line)

/-- The characters of a field. -/
def codesOfField (side : Side) (line : Int) (field : List Char) : Except Fault (List Int) :=
  field.mapM (codeOfCharacter side line)

/-- The most steps to take. -/
def stepsOfField (line : Int) (field : List Char) : Except Fault Int :=
  let w := Text.trim field
  match Text.readInteger w with
  | .ok n => if 0 ≤ n then .ok n else .error (.cause (.negativeSteps n) line)
  | .error _ => .error (.cause (.steps w) line)

/-- The name in a field; a blank field names nothing. -/
def nameOfField (field : List Char) : Option (List Char) :=
  let w := Text.trim field
  if w.isEmpty then none else some w

/-! ## 3. Lines and files -/

/-- Whether `c` is a carriage return or a line feed. -/
def isReturn (c : Char) : Bool := c == '\r' || c == '\n'

/-- The six fields of a line; a line of four has empty fields of characters. -/
structure Fields where
  name : List Char
  inputs : List Char
  outputs : List Char
  characterInputs : List Char
  characterOutputs : List Char
  steps : List Char

/-- The fields of a line. -/
def Fields.ofLine (line : Int) (text : List Char) : Except Fault Fields :=
  match Text.splitAt ';' (Text.dropEnd isReturn text) with
  | [name, inputs, outputs, steps] => .ok ⟨name, inputs, outputs, [], [], steps⟩
  | [name, inputs, outputs, characterInputs, characterOutputs, steps] =>
    .ok ⟨name, inputs, outputs, characterInputs, characterOutputs, steps⟩
  | fields => .error (.cause (.sections fields.length) line)

/-- The case in the fields of a line.  The last field is read first, the others in order. -/
def Case.ofFields (line : Int) (f : Fields) : Except Fault Case := do
  let maxSteps ← stepsOfField line f.steps
  let inputs ← numbersOfField .input line f.inputs
  let outputs ← numbersOfField .output line f.outputs
  let characterInputs ← codesOfField .input line f.characterInputs
  let characterOutputs ← codesOfField .output line f.characterOutputs
  return ⟨nameOfField f.name, inputs, outputs, characterInputs, characterOutputs, maxSteps⟩

/-- The case on a line of that number. -/
def Case.ofLine (line : Int) (text : List Char) : Except Fault Case :=
  (Fields.ofLine line text).bind (Case.ofFields line)

/-- Whether a line of a file holds no case. -/
def isSkipped (text : List Char) : Bool :=
  match text.dropWhile Text.isBlank with
  | [] => true
  | c :: _ => c == '#'

/-- The cases of a file. -/
def Case.ofText (text : List Char) : Except Fault (List Case) :=
  ((Text.numbered (Text.lines text)).filter fun x => !isSkipped x.2).mapM
    fun x => Case.ofLine x.1 x.2

end Trial
end MinionComputer
