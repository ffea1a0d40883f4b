/-
# Arithmetic of the accumulator

The accumulator holds up to three digits and a sign.  A result that needs more keeps its sign and
its last three digits.  The flag tells that the exact result was negative or, in an addition, too
large.

* `Accumulator.wrap`: a number folded into the range, keeping its sign;
* `Accumulator.add`, `Accumulator.subtract`: new content and flag;
* `Accumulator.toCell`: the content as it leaves the machine.
-/
import MinionComputer.Cell

namespace MinionComputer
namespace Accumulator

/-- The number folded into -999 to 999, keeping its sign. -/
def wrap (n : Int) : Int :=
  if 999 < n then n % 1000
  else if n < -999 then -(-n % 1000)
  else n

/-- The content and the flag after adding. -/
def add (acc value : Int) : Int × Bool :=
  let exact := acc + value
  (wrap exact, exact < 0 || 999 < exact)

/-- The content and the flag after subtracting. -/
def subtract (acc value : Int) : Int × Bool :=
  let exact := acc - value
  (wrap exact, exact < 0)

/-- The last three digits without the sign. -/
def toCell (acc : Int) : Cell := Fin.ofNat 1000 acc.natAbs

/-- The lowest eight bits of a number. -/
def lowByte (n : Int) : Int := n % 256

theorem wrap_bounds (n : Int) : -999 ≤ wrap n ∧ wrap n ≤ 999 := by
  unfold wrap
  split
  · omega
  · split <;> omega

theorem wrap_of_mem {n : Int} (h : -999 ≤ n ∧ n ≤ 999) : wrap n = n := by
  unfold wrap
  split
  · omega
  · split <;> omega

end Accumulator
end MinionComputer
