/-
# Registers

The accumulator, the address of the next instruction, the flag and the count of executed
instructions.  A running machine keeps the accumulator between -999 and 999 and the address in
range; from outside, any numbers may be put in.

* `Registers.display`: one line for traces.
-/
import MinionComputer.Accumulator

namespace MinionComputer

/-- The registers. -/
structure Registers where
  acc : Int := 0
  pc : Int := 0
  negative : Bool := false
  steps : Int := 0
  deriving DecidableEq, Repr

namespace Registers

/-- The accumulator as it leaves the machine. -/
def cell (r : Registers) : Cell := Accumulator.toCell r.acc

/-- The registers on one line. -/
def display (r : Registers) : List Char :=
  "PC=".toList ++ Text.padded 2 r.pc ++ " ACC=".toList ++ Text.paddedSigned 4 r.acc ++
    " [".toList ++ (if r.negative then 'N' else '.') :: "] steps=".toList ++ Text.padded 0 r.steps

end Registers
end MinionComputer
