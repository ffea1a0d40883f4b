/-
# Capitals

Only the part of Unicode's capitalisation that can end in the twenty-six plain capitals of an
instruction word is kept: the plain small letters, the long s, the dotless i, and the two
ligatures of s and t, each of which becomes two letters.  Every other character stays as it is;
what Unicode would make of it is not a row of letters that any instruction word contains.

* `capital`: the capital form of one character;
* `capitals`: of a text;
* `lowerAscii`: the plain capitals made small, for the endings of file names.
-/
namespace MinionComputer
namespace Text

/-- The capital form of `c`. -/
def capital (c : Char) : List Char :=
  if 97 ≤ c.toNat && c.toNat ≤ 122 then [Char.ofNat (c.toNat - 32)]
  else if c.toNat == 0x17F then ['S']
  else if c.toNat == 0x131 then ['I']
  else if c.toNat == 0xFB05 || c.toNat == 0xFB06 then ['S', 'T']
  else [c]

/-- The text in capitals. -/
def capitals (cs : List Char) : List Char := cs.flatMap capital

/-- The text with its plain capitals made small. -/
def lowerAscii (cs : List Char) : List Char := cs.map Char.toLower

end Text
end MinionComputer
