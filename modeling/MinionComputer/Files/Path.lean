/-
# Names of files

A name is a row of parts with slashes between.  Slashes at the front say that the row starts at
the root.  Empty parts and parts that are a single dot lead nowhere and may be left out; a part of
two dots leads back and stays.

* `Path.ofText`, `Path.text`: a name taken apart, and put together again;
* `extension`: the ending of a name.
-/
import MinionComputer.Text.Piece

namespace MinionComputer

/-- A name taken apart: the slashes that it starts with, and its parts. -/
structure Path where
  root : List Char
  parts : List (List Char)
  deriving DecidableEq, Repr

namespace Path

/-- Whether a part of a name leads nowhere. -/
def isIdle (part : List Char) : Bool := part.isEmpty || part == ['.']

/-- What a name starts with.  Two slashes are a root of their own; any other number counts as
one. -/
def rootOf (name : List Char) : List Char :=
  match (name.takeWhile (· == '/')).length with
  | 0 => []
  | 2 => ['/', '/']
  | _ => ['/']

/-- The name taken apart, without the parts that lead nowhere. -/
def ofText (name : List Char) : Path :=
  ⟨rootOf name, (Text.splitAt '/' name).filter (!isIdle ·)⟩

/-- The name put together; a single dot if there is nothing to put together. -/
def text (p : Path) : List Char :=
  let name := p.root ++ Text.joinWith '/' p.parts
  if name.isEmpty then ['.'] else name

/-- The name without its last part. -/
def parent (p : Path) : Path := { p with parts := p.parts.dropLast }

/-- The name in its plainest form. -/
def plain (name : List Char) : List Char := (ofText name).text

end Path

/-- The last part of a name as it is written. -/
def lastPart (name : List Char) : List Char :=
  (name.reverse.takeWhile (· != '/')).reverse

/-- The ending of a name: its last dot and what follows, if something other than dots stands
before the dot in the last part. -/
def extension (name : List Char) : List Char :=
  let backwards := (lastPart name).reverse
  match backwards.dropWhile (· != '.') with
  | [] => []
  | dot :: before =>
    if before.all (· == '.') then [] else dot :: (backwards.takeWhile (· != '.')).reverse

end MinionComputer
