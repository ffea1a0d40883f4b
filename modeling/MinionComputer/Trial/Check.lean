/-
# Running test cases

A case runs on a memory of its own through a device that gives what the case has to give and
compares what comes out at once.  A case fails at the first thing that is not as expected: an
output that differs or is one too many, a request with nothing left to give, a fault of the
program, too many steps, or anything left over when the program halts.

* `Check.device`: the device;
* `Case.run`: one case, with the number of executed instructions or the failure;
* `runAll`: one case after another.
-/
import MinionComputer.Trial.Case
import MinionComputer.Machine.Run
import MinionComputer.Device.Scripted

namespace MinionComputer
namespace Trial

/-! ## 1. Failures -/

/-- The ways in which a program can fail a case. -/
inductive Kind where
  | ranOutOfSteps
  | ranOutOfInputs
  | ranOutOfCharInputs
  | tooManyOutputs
  | tooManyCharOutputs
  | differentOutput
  | differentCharOutput
  | expectedMoreInputs
  | expectedMoreOutputs
  | expectedMoreCharInputs
  | expectedMoreCharOutputs
  | computerError
  deriving DecidableEq, Repr

/-- The name of a kind. -/
def Kind.name : Kind → String
  | ranOutOfSteps => "RAN_OUT_OF_STEPS"
  | ranOutOfInputs => "RAN_OUT_OF_INPUTS"
  | ranOutOfCharInputs => "RAN_OUT_OF_CHAR_INPUTS"
  | tooManyOutputs => "TOO_MANY_OUTPUTS"
  | tooManyCharOutputs => "TOO_MANY_CHAR_OUTPUTS"
  | differentOutput => "DIFFERENT_OUTPUT"
  | differentCharOutput => "DIFFERENT_CHAR_OUTPUT"
  | expectedMoreInputs => "EXPECTED_MORE_INPUTS"
  | expectedMoreOutputs => "EXPECTED_MORE_OUTPUTS"
  | expectedMoreCharInputs => "EXPECTED_MORE_CHAR_INPUTS"
  | expectedMoreCharOutputs => "EXPECTED_MORE_CHAR_OUTPUTS"
  | computerError => "COMPUTER_ERROR"

/-- The wording of a kind. -/
def Kind.message : Kind → String
  | ranOutOfSteps => "Ran out of steps"
  | ranOutOfInputs => "Requested more inputs than expected"
  | ranOutOfCharInputs => "Requested more char inputs than expected"
  | tooManyOutputs => "Gave more outputs than expected"
  | tooManyCharOutputs => "Gave more char outputs than expected"
  | differentOutput => "Different output than expected"
  | differentCharOutput => "Different char output than expected"
  | expectedMoreInputs => "Expected more inputs"
  | expectedMoreOutputs => "Expected more outputs"
  | expectedMoreCharInputs => "Expected more char inputs"
  | expectedMoreCharOutputs => "Expected more char outputs"
  | computerError => "Computer error"

/-- A failed case: how, after how many instructions, what exactly, and the name of the case. -/
structure Failure where
  kind : Kind
  steps : Int
  detail : String := ""
  name : Option (List Char) := none
  deriving DecidableEq, Repr

/-- The wording of a failure. -/
def Failure.message (f : Failure) : String :=
  (match f.name with
    | some (c :: r) => "Test " ++ String.ofList (c :: r) ++ ": "
    | _ => "") ++
  f.kind.message ++ (if f.detail.isEmpty then "" else " (" ++ f.detail ++ ")") ++
  " after " ++ Text.integer f.steps ++ " steps"

/-! ## 2. The device -/

/-- What is left to give and to expect. -/
structure Check where
  numbers : List Int
  characters : List Int
  expected : List Int
  expectedCharacters : List Int
  deriving DecidableEq, Repr

/-- Why the device stops a run. -/
inductive CheckFault where
  /-- Something came out that was not expected. -/
  | unexpected (kind : Kind) (detail : String)
  /-- A code has no character to show. -/
  | code (f : CodeFault)
  deriving DecidableEq, Repr

namespace Check

/-- What a case begins with. -/
def ofCase (c : Case) : Check := ⟨c.inputs, c.characterInputs, c.outputs, c.characterOutputs⟩

/-- A code and its character. -/
def showCode (code : Int) : Except CheckFault String :=
  match codeOf code with
  | .ok c => .ok (Text.integer code ++ " = " ++ Text.quotedCode c)
  | .error f => .error (.code f)

/-- The fault of a number that came out. -/
def numberFault (value : Int) : Option Int → CheckFault
  | none => .unexpected .tooManyOutputs ("output: " ++ Text.integer value)
  | some expected =>
    .unexpected .differentOutput
      ("expected " ++ Text.integer expected ++ ", got " ++ Text.integer value)

/-- The fault of a character that came out. -/
def characterFault (value : Int) : Option Int → CheckFault
  | none =>
    match showCode value with
    | .ok v => .unexpected .tooManyCharOutputs ("output: " ++ v)
    | .error f => f
  | some expected =>
    match showCode expected, showCode value with
    | .ok e, .ok v => .unexpected .differentCharOutput ("expected " ++ e ++ ", got " ++ v)
    | .error f, _ => f
    | .ok _, .error f => f

/-- The device. -/
def device : Device Check CheckFault where
  requestNumber c :=
    match c.numbers with
    | [] => .quiet c (.ok none)
    | n :: r => .quiet { c with numbers := r } (.ok (some n))
  requestCharacter c :=
    match c.characters with
    | [] => .quiet c (.ok none)
    | n :: r => .quiet { c with characters := r } (.ok (some n))
  emitNumber value c :=
    match c.expected with
    | [] => .quiet c (.error (numberFault value none))
    | e :: r =>
      .quiet { c with expected := r }
        (if value = e then .ok () else .error (numberFault value (some e)))
  emitCharacter value c :=
    match c.expectedCharacters with
    | [] => .quiet c (.error (characterFault value none))
    | e :: r =>
      .quiet { c with expectedCharacters := r }
        (if value = e then .ok () else .error (characterFault value (some e)))

/-- The first of the four rows that is not used up, with how much of it is left. -/
def leftover (c : Check) : Option (Kind × Nat) :=
  if !c.numbers.isEmpty then some (.expectedMoreInputs, c.numbers.length)
  else if !c.expected.isEmpty then some (.expectedMoreOutputs, c.expected.length)
  else if !c.characters.isEmpty then some (.expectedMoreCharInputs, c.characters.length)
  else if !c.expectedCharacters.isEmpty then
    some (.expectedMoreCharOutputs, c.expectedCharacters.length)
  else none

end Check

/-! ## 3. Cases -/

/-- Why a case does not pass: it failed, or it could not be carried out. -/
inductive Trouble where
  | failure (f : Failure)
  | code (f : CodeFault)
  | address (n : Int)
  deriving DecidableEq, Repr

/-- The kind of failure when an instruction waits for input that the case has not: numbers for
one of the two input instructions, characters for the other. -/
def starvation (extended : Bool) (c : Cell) : Kind :=
  if Instruction.ofCell extended c = some .readCharacter then .ranOutOfCharInputs
  else .ranOutOfInputs

/-- What a program that halted has come to. -/
def settle (m : Machine) (c : Check) : Except Trouble Int :=
  match c.leftover with
  | some (kind, n) => .error (.failure ⟨kind, m.registers.steps, Text.natural n ++ " left", none⟩)
  | none => .ok m.registers.steps

/-- Takes the steps that are left; `notes` were made before. -/
def drive : (left : Nat) → Array Note → Machine → Check → Array Note × Except Trouble Int
  | 0, notes, m, _ => (notes, .error (.failure ⟨.ranOutOfSteps, m.registers.steps, "", none⟩))
  | left + 1, notes, m, c =>
    let t := m.step Check.device c
    let notes := notes ++ t.notes.toArray
    match t.result with
    | .error (.address n) => (notes, .error (.address n))
    | .error (.device (.code f)) => (notes, .error (.code f))
    | .error (.device (.unexpected kind detail)) =>
      (notes, .error (.failure ⟨kind, t.machine.registers.steps, detail, none⟩))
    | .ok r =>
      match r.outcome with
      | .continued => drive left notes t.machine t.device
      | .halted => (notes, settle t.machine t.device)
      | .awaitingInput =>
        (notes, .error (.failure
          ⟨starvation t.machine.extended r.cell, t.machine.registers.steps, "", none⟩))
      | _ =>
        (notes, .error (.failure ⟨.computerError, t.machine.registers.steps, r.message, none⟩))

/-- The channel of the notes on test cases. -/
def channel : String := "lmc_emulator.tester"

/-- The name of a case in a note. -/
def Case.displayName (c : Case) : String :=
  match c.name with
  | some (x :: r) => String.ofList (x :: r)
  | _ => "<unnamed>"

/-- Puts the name of a case to its failure. -/
def Trouble.named (name : Option (List Char)) : Trouble → Trouble
  | .failure f => .failure { f with name := name }
  | t => t

/-- Runs a case on a memory: notes, and the number of executed instructions or why it does not
pass. -/
def Case.run (c : Case) (m : Memory) : List Note × Except Trouble Int :=
  let machine := Machine.start m
  let (notes, result) := drive c.maxSteps.toNat #[machine.startNote] machine (Check.ofCase c)
  match result with
  | .ok n =>
    (notes.toList ++ [⟨.debug, channel, "Test " ++ c.displayName ++ " passed in " ++
      Text.integer n ++ " steps"⟩], .ok n)
  | .error t => (notes.toList, .error (t.named c.name))

/-- A case with what came of it. -/
structure Entry where
  case : Case
  failure : Option Failure
  steps : Int
  deriving DecidableEq, Repr

/-- Runs the cases one after another, each on the memory given.  A case that cannot be carried
out ends it. -/
def runAll (m : Memory) : List Case → List Note × Except Trouble (List Entry)
  | [] => ([], .ok [])
  | c :: cs =>
    let (notes, result) := c.run m
    match result with
    | .ok n =>
      let (notes', rest) := runAll m cs
      (notes ++ notes', rest.map (⟨c, none, n⟩ :: ·))
    | .error (.failure f) =>
      let (notes', rest) := runAll m cs
      (notes ++ ⟨.info, channel, f.message⟩ :: notes', rest.map (⟨c, some f, f.steps⟩ :: ·))
    | .error t => (notes, .error t)

end Trial
end MinionComputer
