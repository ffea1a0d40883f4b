/-
# Scripted devices

A scripted device hands out what is queued in it and keeps what is written to it, numbers and
characters in one row.  An entry of a queue may be empty: it is handed out as no input.

* `Scripted.device`: a device that never fails;
* `Scripted.outputs`, `Scripted.characterOutputs`: what was written, by kind;
* `codeOf`, `characterOf`: the code that a number is, and its character.
-/
import MinionComputer.Device.Basic

namespace MinionComputer

/-! ## 1. Codes of characters -/

/-- Why a number is no code of a character. -/
inductive CodeFault where
  /-- It lies outside the range of codes. -/
  | range
  /-- It does not even fit a machine word of 32 bits. -/
  | width
  deriving DecidableEq, Repr

/-- The wording of a fault. -/
def CodeFault.message : CodeFault → String
  | .range => "character code out of range"
  | .width => "character code too large"

/-- The number as a code, if it is one. -/
def codeOf (n : Int) : Except CodeFault Nat :=
  if n < -2147483648 ∨ 2147483647 < n then .error .width
  else if n < 0 ∨ 0x10FFFF < n then .error .range
  else .ok n.toNat

/-- The character of a code. -/
def characterOf (n : Int) : Except CodeFault Char := (codeOf n).map Char.ofNat

/-! ## 2. The device -/

/-- Something written. -/
inductive Emission where
  | number (n : Int)
  | character (code : Int)
  deriving DecidableEq, Repr

/-- Queues of input and a row of output. -/
structure Scripted where
  numbers : List (Option Int) := []
  characters : List (Option Int) := []
  events : Array Emission := #[]

namespace Scripted

/-- Takes the next number. -/
def requestNumber (s : Scripted) : Answer Scripted Empty (Option Int) :=
  match s.numbers with
  | [] => .quiet s (.ok none)
  | n :: r => .quiet { s with numbers := r } (.ok n)

/-- Takes the next character. -/
def requestCharacter (s : Scripted) : Answer Scripted Empty (Option Int) :=
  match s.characters with
  | [] => .quiet s (.ok none)
  | c :: r => .quiet { s with characters := r } (.ok c)

/-- Keeps what is written. -/
def emit (e : Emission) (s : Scripted) : Answer Scripted Empty Unit :=
  .quiet { s with events := s.events.push e } (.ok ())

/-- The device. -/
def device : Device Scripted Empty where
  requestNumber := requestNumber
  requestCharacter := requestCharacter
  emitNumber n := emit (.number n)
  emitCharacter c := emit (.character c)

/-- Queues one more number. -/
def pushNumber (s : Scripted) (n : Option Int) : Scripted := { s with numbers := s.numbers ++ [n] }

/-- Queues more characters. -/
def pushCharacters (s : Scripted) (cs : List (Option Int)) : Scripted :=
  { s with characters := s.characters ++ cs }

/-- The numbers written, in order. -/
def outputs (s : Scripted) : List Int :=
  s.events.toList.filterMap fun
    | .number n => some n
    | .character _ => none

/-- The codes of the characters written, in order. -/
def characterOutputs (s : Scripted) : List Int :=
  s.events.toList.filterMap fun
    | .number _ => none
    | .character c => some c

/-- The characters written, as a text. -/
def text (s : Scripted) : Except CodeFault (List Char) := s.characterOutputs.mapM characterOf

end Scripted
end MinionComputer
