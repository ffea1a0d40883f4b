/-
# Instruction words

The fourteen words that a statement may name, what each takes as an operand, and the cell each
stands for without its operand.

* `Mnemonic.ofName?`: the word written exactly;
* `Mnemonic.ofWord?`: the word in any spelling, where capitals and small letters are the same and
  three words have a second name;
* `Mnemonic.encode`: the cell of a word and its operand, or why there is none.
-/
import MinionComputer.Cell
import MinionComputer.Text.Capital

namespace MinionComputer

/-! ## 1. The words -/

/-- The words of the language.  The last three belong to the extended instructions. -/
inductive Mnemonic where
  | hlt | add | sub | sto | lda | br | brz | brp | inp | out | dat | ext | ina | ota
  deriving DecidableEq, Repr

/-- What a word takes as its operand. -/
inductive OperandForm where
  | none
  | address
  | data
  deriving DecidableEq, Repr

namespace Mnemonic

/-- The word as it is written. -/
def name : Mnemonic → String
  | hlt => "HLT"
  | add => "ADD"
  | sub => "SUB"
  | sto => "STO"
  | lda => "LDA"
  | br => "BR"
  | brz => "BRZ"
  | brp => "BRP"
  | inp => "INP"
  | out => "OUT"
  | dat => "DAT"
  | ext => "EXT"
  | ina => "INA"
  | ota => "OTA"

/-- The letters of the word. -/
def letters (m : Mnemonic) : List Char := m.name.toList

/-- What the word takes. -/
def form : Mnemonic → OperandForm
  | hlt | inp | out | ext | ina | ota => .none
  | dat => .data
  | add | sub | sto | lda | br | brz | brp => .address

/-- Whether the word takes an operand. -/
def takesOperand (m : Mnemonic) : Bool := m.form != .none

/-- The cell of the word with operand zero. -/
def base : Mnemonic → Cell
  | hlt => 0
  | add => 100
  | sub => 200
  | sto => 300
  | lda => 500
  | br => 600
  | brz => 700
  | brp => 800
  | inp => 901
  | out => 902
  | dat => 0
  | ext => 10
  | ina => 911
  | ota => 912

/-- Whether the word belongs to the extended instructions. -/
def isExtended : Mnemonic → Bool
  | ext | ina | ota => true
  | _ => false

/-! ## 2. Reading a word -/

/-- The word whose letters these are. -/
def ofName? : List Char → Option Mnemonic
  | ['H', 'L', 'T'] => some hlt
  | ['A', 'D', 'D'] => some add
  | ['S', 'U', 'B'] => some sub
  | ['S', 'T', 'O'] => some sto
  | ['L', 'D', 'A'] => some lda
  | ['B', 'R'] => some br
  | ['B', 'R', 'Z'] => some brz
  | ['B', 'R', 'P'] => some brp
  | ['I', 'N', 'P'] => some inp
  | ['O', 'U', 'T'] => some out
  | ['D', 'A', 'T'] => some dat
  | ['E', 'X', 'T'] => some ext
  | ['I', 'N', 'A'] => some ina
  | ['O', 'T', 'A'] => some ota
  | _ => none

/-- The word that these letters are the second name of. -/
def ofAlias? : List Char → Option Mnemonic
  | ['S', 'T', 'A'] => some sto
  | ['B', 'R', 'A'] => some br
  | ['I', 'N'] => some inp
  | _ => none

/-- The word in any of its spellings. -/
def ofWord? (w : List Char) : Option Mnemonic :=
  (ofName? (Text.capitals w)).or (ofAlias? (Text.capitals w))

@[simp] theorem ofName?_letters (m : Mnemonic) : ofName? m.letters = some m := by
  cases m <;> rfl

@[simp] theorem ofWord?_letters (m : Mnemonic) : ofWord? m.letters = some m := by
  cases m <;> rfl

end Mnemonic

/-! ## 3. Encoding -/

/-- Why a word and an operand have no cell. -/
inductive EncodingFault where
  | unknownWord (w : List Char)
  | operandUnwanted (m : Mnemonic)
  | operandMissing (m : Mnemonic)
  | addressRange (m : Mnemonic) (value : Int)
  | dataRange (value : Int)
  deriving DecidableEq, Repr

/-- The wording of a fault. -/
def EncodingFault.message : EncodingFault → String
  | .unknownWord w => "Unknown mnemonic: " ++ String.ofList w
  | .operandUnwanted m => m.name ++ " takes no operand"
  | .operandMissing m => m.name ++ " requires an address operand"
  | .addressRange m v => m.name ++ " address out of range 0-99: " ++ Text.integer v
  | .dataRange v => "DAT value out of range 0-999: " ++ Text.integer v

namespace Mnemonic

/-- The cell of an address instruction at `a`. -/
def withAddress (m : Mnemonic) (a : Address) : Cell := Fin.ofNat 1000 (m.base.val + a.val)

/-- The cell of a word and its operand.  A data word without one holds zero. -/
def encode (m : Mnemonic) (operand : Option Int) : Except EncodingFault Cell :=
  match m.form with
  | .none => if operand.isSome then .error (.operandUnwanted m) else .ok m.base
  | .data =>
    let value := operand.getD 0
    match Cell.ofInt? value with
    | some c => .ok c
    | none => .error (.dataRange value)
  | .address =>
    match operand with
    | none => .error (.operandMissing m)
    | some value =>
      match Address.ofInt? value with
      | some a => .ok (m.withAddress a)
      | none => .error (.addressRange m value)

/-- `encode` for a word in any spelling. -/
def encodeWord (w : List Char) (operand : Option Int) : Except EncodingFault Cell :=
  match ofWord? w with
  | some m => m.encode operand
  | none => .error (.unknownWord w)

/-- No carry reaches past the three digits. -/
theorem withAddress_val {m : Mnemonic} (h : m.form = .address) (a : Address) :
    (m.withAddress a).val = m.base.val + a.val := by
  have ha := a.isLt
  cases m <;> simp [form] at h <;>
    simp only [withAddress, base, Fin.ofNat] <;> exact Nat.mod_eq_of_lt (by omega)

end Mnemonic
end MinionComputer
