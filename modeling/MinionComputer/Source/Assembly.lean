/-
# Assembling a source text

The first pass gives each statement the next address and binds its label to it; the second finds
the value of each operand and makes the cells.  Both passes collect every problem they meet, and
a memory comes out only if there is none; the second pass runs only if the first met none.

* `FirstPass.ofLines`: addresses, labels, and what is wrong so far;
* `operandValue`, `Placed.cell`: one statement in the second pass;
* `Assembly.ofSource`: both passes; what was assembled and what was found out on the way;
* `Assembly.listing`: address, cell and source line of each statement;
* `Assembler.assemble`: one text after another with one assembler, which keeps what the passes fill.
-/
import MinionComputer.Source.Statement
import MinionComputer.Memory.Basic
import MinionComputer.Note

namespace MinionComputer
namespace Source

/-! ## 1. The first pass -/

/-- Labels and the addresses they name, in the order of their definition. -/
abbrev Symbols := List (List Char × Address)

/-- The address that a label names. -/
def Symbols.address? (symbols : Symbols) (label : List Char) : Option Address :=
  (symbols.find? (·.1 == label)).map (·.2)

/-- A statement with its address and its line. -/
structure Placed where
  statement : Statement
  address : Address
  line : Int
  raw : List Char
  deriving DecidableEq, Repr

/-- A problem with a placed statement. -/
def Placed.problem (p : Placed) (cause : Cause) : Problem := ⟨cause, p.line, Text.trim p.raw⟩

/-- The symbols with the label of a statement, and what is wrong with the statement in its place:
a label that there is already, an extended instruction that is off, or the mark of extended mode
away from address 0, in this order.  A label that there is already stays what it was. -/
def Placed.bind (enabled : Bool) (symbols : Symbols) (p : Placed) : Symbols × Option Problem :=
  match p.statement.label.bind fun l => (symbols.address? l).map fun a => (l, a) with
  | some (l, first) => (symbols, some (p.problem (.duplicateLabel l first)))
  | none =>
    let m := p.statement.mnemonic
    (symbols ++ p.statement.label.toList.map fun l => (l, p.address),
      if m.isExtended ∧ !enabled then some (p.problem (.extensionOff m))
      else if m = .ext ∧ p.address ≠ 0 then some (p.problem .misplacedMark)
      else none)

/-- What the first pass finds out. -/
structure FirstPass where
  symbols : Symbols
  placed : List Placed
  problems : List Problem

/-- The first pass over the lines that are left, where `next` statements have been read and
`symbols` bound.  Statements past the hundredth get no address, and the first of them is
reported. -/
def FirstPass.ofLines (enabled : Bool) :
    (next : Nat) → Symbols → List (Nat × List Char) → FirstPass
  | _, symbols, [] => ⟨symbols, [], []⟩
  | next, symbols, (number, raw) :: rest =>
    match Line.parse number raw with
    | .error p =>
      let after := ofLines enabled next symbols rest
      { after with problems := p :: after.problems }
    | .ok line =>
      match line.statement with
      | none => ofLines enabled next symbols rest
      | some s =>
        if h : next < 100 then
          let p : Placed := ⟨s, ⟨next, h⟩, number, raw⟩
          let (symbols', problem?) := p.bind enabled symbols
          let after := ofLines enabled (next + 1) symbols' rest
          ⟨after.symbols, p :: after.placed, problem?.toList ++ after.problems⟩
        else
          let after := ofLines enabled (next + 1) symbols rest
          if next = 100 then
            { after with
              problems := ⟨.programTooLarge, number, Text.trim raw⟩ :: after.problems }
          else after

/-! ## 2. The second pass -/

/-- The value of an operand: that of a numeral, or the address that a label names. -/
def operandValue (symbols : Symbols) (w : List Char) : Except ValueFault Int :=
  if Text.isSignedNumeral w then
    match Text.readInteger w with
    | .ok n => .ok n
    | .error (.tooLong digits) => .error (.tooLong digits)
    | .error .malformed => .error (.cause (.invalidOperand w))
  else if !isLabel w then .error (.cause (.invalidOperand w))
  else match symbols.address? w with
    | some a => .ok (Address.toInt a)
    | none => .error (.cause (.undefinedLabel w))

/-- The cell of an instruction word and the value of its operand. -/
def cellOf (m : Mnemonic) (value : Int) : Except ValueFault Cell :=
  if m = .dat then
    match Cell.ofInt? value with
    | some c => .ok c
    | none => .error (.cause (.dataRange value))
  else
    match Address.ofInt? value with
    | some a => .ok (m.withAddress a)
    | none => .error (.cause (.addressRange value))

/-- The cell of a statement. -/
def Placed.cell (symbols : Symbols) (p : Placed) : Except ValueFault Cell :=
  match p.statement.operand with
  | none => .ok p.statement.mnemonic.base
  | some w => (operandValue symbols w).bind (cellOf p.statement.mnemonic)

/-- What is wrong in the second pass, in the order of the statements; the first operand of more
digits than are read ends it, and only their number is told. -/
def secondProblems (symbols : Symbols) : List Placed → Except Nat (List Problem)
  | [] => .ok []
  | p :: rest =>
    match p.cell symbols with
    | .ok _ => secondProblems symbols rest
    | .error (.cause c) => (secondProblems symbols rest).map (p.problem c :: ·)
    | .error (.tooLong digits) => .error digits

/-- The cell of each statement. -/
def secondCells (symbols : Symbols) (placed : List Placed) : List Cell :=
  placed.map fun p => (p.cell symbols).toOption.getD 0

/-! ## 3. Both passes -/

/-- One of the two passes. -/
inductive Pass where
  | first
  | second
  deriving DecidableEq, Repr

/-- The name of a pass. -/
def Pass.name : Pass → String
  | .first => "Pass 1"
  | .second => "Pass 2"

/-- Why a text is not assembled: all that one pass found, or a numeral of too many digits. -/
inductive AssemblyFault where
  | problems (pass : Pass) (first : Problem) (others : List Problem)
  | tooLong (digits : Nat)
  deriving DecidableEq, Repr

/-- The wording of a fault: a single problem says it itself, several are listed. -/
def AssemblyFault.message : AssemblyFault → String
  | .problems _ p [] => p.message
  | .problems pass p (q :: r) =>
    pass.name ++ " errors:\n" ++ String.intercalate "\n" ((p :: q :: r).map Problem.message)
  | .tooLong digits => Text.tooLongMessage digits

/-- What is raised for a fault: a single problem itself, or an error at no line that lists several.
A numeral of too many digits raises neither. -/
def AssemblyFault.raised? (f : AssemblyFault) : Option Raised :=
  match f with
  | .problems _ p [] => some p.raised
  | .problems _ p (q :: r) => some ⟨none, f.message, 0, [], p :: q :: r⟩
  | .tooLong _ => none

/-- What came of assembling a text. -/
structure Assembly where
  symbols : Symbols
  placed : List Placed
  result : Except AssemblyFault Memory

/-- The fault of a pass that found these problems, if it found any. -/
def faultOf (pass : Pass) : List Problem → Option AssemblyFault
  | [] => none
  | p :: ps => some (.problems pass p ps)

/-- The second pass over placed statements. -/
def secondPass (symbols : Symbols) (placed : List Placed) : Except AssemblyFault Memory :=
  match secondProblems symbols placed with
  | .error digits => .error (.tooLong digits)
  | .ok problems =>
    match faultOf .second problems with
    | some f => .error f
    | none => .ok (Memory.ofList (secondCells symbols placed))

namespace Assembly

/-- Assembles a text; `enabled` allows the extended instructions. -/
def ofSource (enabled : Bool) (source : List Char) : Assembly :=
  let first := FirstPass.ofLines enabled 0 [] (Text.numbered (Text.lines source))
  ⟨first.symbols, first.placed,
    match faultOf .first first.problems with
    | some f => .error f
    | none => secondPass first.symbols first.placed⟩

/-- The channel of the notes on assembling. -/
def channel : String := "lmc_assembler.assembler"

/-- What is noted about an assembly. -/
def notes (a : Assembly) : List Note :=
  match a.result with
  | .ok _ =>
    [⟨.debug, channel, "Assembled " ++ Text.natural a.placed.length ++ " statements, " ++
      Text.natural a.symbols.length ++ " labels"⟩]
  | .error (.problems pass _ others) =>
    [⟨.debug, channel, pass.name ++ " failed with " ++ Text.natural (others.length + 1) ++
      " error(s)"⟩]
  | .error (.tooLong _) => []

/-! ## 4. Listings -/

/-- The head of a listing. -/
def listingHead : List (List Char) :=
  [Text.rightAligned 4 "ADDR".toList ++ [' ', ' '] ++ Text.rightAligned 4 "CELL".toList ++
      [' ', ' '] ++ "SOURCE".toList,
    List.replicate 40 '-']

/-- The line of a statement: its address, its cell, and up to forty characters of its source
line. -/
def listingLine (m : Memory) (p : Placed) : List Char :=
  Text.rightAligned 4 (Text.decimal p.address.val) ++ [' ', ' ', ' '] ++
    Cell.digits (m.read p.address) ++ [' ', ' '] ++ (Text.trim p.raw).take 40

/-- The listing of what was assembled; nothing if nothing was. -/
def listing (a : Assembly) : List Char :=
  match a.result with
  | .ok m => Text.joinWith '\n' (listingHead ++ a.placed.map (listingLine m))
  | .error _ => []

end Assembly

/-! ## 5. One text after another -/

/-- An assembler, and what the latest text left in it: the labels, the problems of the pass that ran
last, the statements in the order of their addresses, and the memory if the text was assembled. -/
structure Assembler where
  enabled : Bool := true
  symbols : Symbols := []
  problems : List Problem := []
  placed : List Placed := []
  memory : Option Memory := none

namespace Assembler

/-- The assembler with nothing left in it. -/
def clear (a : Assembler) : Assembler :=
  { a with symbols := [], problems := [], placed := [], memory := none }

/-- The assembler with one problem more. -/
def report (a : Assembler) (p : Problem) : Assembler := { a with problems := a.problems ++ [p] }

/-- The assembler with one statement more, its label bound and what is wrong with it reported. -/
def place (a : Assembler) (p : Placed) : Assembler :=
  let (symbols, problem?) := p.bind a.enabled a.symbols
  { a with
    symbols := symbols
    problems := a.problems ++ problem?.toList
    placed := a.placed ++ [p] }

/-- Where the first pass stands: the assembler as it is filled so far, the next address, and whether
it was reported that there are too many statements. -/
structure Reading where
  assembler : Assembler
  next : Nat := 0
  overflowed : Bool := false

/-- The first pass over one numbered line. -/
def Reading.line (r : Reading) (x : Nat × List Char) : Reading :=
  match Line.parse x.1 x.2 with
  | .error p => { r with assembler := r.assembler.report p }
  | .ok line =>
    match line.statement with
    | none => r
    | some s =>
      if h : r.next < 100 then
        { r with assembler := r.assembler.place ⟨s, ⟨r.next, h⟩, x.1, x.2⟩, next := r.next + 1 }
      else if r.overflowed then { r with next := r.next + 1 }
      else
        { assembler := r.assembler.report ⟨.programTooLarge, x.1, Text.trim x.2⟩
          next := r.next + 1
          overflowed := true }

/-- The assembler after the first pass over a text. -/
def read (a : Assembler) (source : List Char) : Assembler :=
  ((Text.numbered (Text.lines source)).foldl Reading.line { assembler := a }).assembler

/-- The second pass over the statements that are left: each cell goes into the memory or its problem
is reported, and an operand of too many digits ends the pass. -/
def fill (a : Assembler) (m : Memory) : List Placed → Assembler × Except Nat Memory
  | [] => (a, .ok m)
  | p :: rest =>
    match p.cell a.symbols with
    | .ok c => fill a (m.write p.address c) rest
    | .error (.cause c) => fill (a.report (p.problem c)) m rest
    | .error (.tooLong digits) => (a, .error digits)

/-- The second pass over what the first left: the memory stays in the assembler if nothing is
wrong. -/
def finish (a : Assembler) : Assembler × Except AssemblyFault Memory :=
  match a.fill .blank a.placed with
  | (a, .error digits) => (a, .error (.tooLong digits))
  | (a, .ok m) =>
    match faultOf .second a.problems with
    | some f => (a, .error f)
    | none => ({ a with memory := some m }, .ok m)

/-- Assembles one more text: what is left in the assembler, and the memory or the fault. -/
def assemble (a : Assembler) (source : List Char) : Assembler × Except AssemblyFault Memory :=
  let a := a.clear.read source
  match faultOf .first a.problems with
  | some f => (a, .error f)
  | none => a.finish

/-- The listing of the latest text; nothing if it was not assembled. -/
def listing (a : Assembler) : List Char :=
  match a.memory with
  | some m =>
    Text.joinWith '\n' (Assembly.listingHead ++ a.placed.map (Assembly.listingLine m))
  | none => []

end Assembler

end Source
end MinionComputer
