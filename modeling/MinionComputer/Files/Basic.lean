/-
# Files

Files stand in directories, which stand in directories, up to the root.  Every place is named by
the parts that lead to it from the root; a name that does not start at the root starts at the
directory one is in.

* `Files.walk`: the place a name leads to;
* `Files.read`, `Files.write`: the content of a file;
* `Files.makeDirectory`, `Files.ensureDirectory`: new directories;
* `FileFault`: why a name is refused.
-/
import MinionComputer.Files.Path
import MinionComputer.Text.Quoted
import MinionComputer.Text.Numeral
import MinionComputer.Text.Utf8

namespace MinionComputer

/-! ## 1. Faults -/

/-- Why a name leads nowhere, or not to what is needed. -/
inductive FileReason where
  /-- There is nothing of that name. -/
  | missing
  /-- There is something of that name already. -/
  | occupied
  /-- The name leads through something that is no directory. -/
  | noDirectory
  /-- There is a directory where a file is needed. -/
  | directory
  /-- The name, or a part of it, is longer than names may be. -/
  | tooLong
  deriving DecidableEq, Repr

/-- The number of a reason. -/
def FileReason.number : FileReason → Nat
  | .missing => 2
  | .occupied => 17
  | .noDirectory => 20
  | .directory => 21
  | .tooLong => 36

/-- The wording of a reason. -/
def FileReason.message : FileReason → String
  | .missing => "No such file or directory"
  | .occupied => "File exists"
  | .noDirectory => "Not a directory"
  | .directory => "Is a directory"
  | .tooLong => "File name too long"

/-- Why a file cannot be used. -/
inductive FileFault where
  | refused (reason : FileReason) (name : List Char)
  /-- The name holds a zero character, which no name may. -/
  | zeroInName
  deriving DecidableEq, Repr

/-- The wording of a fault. -/
def FileFault.message : FileFault → String
  | .refused reason name =>
    "[Errno " ++ Text.natural reason.number ++ "] " ++ reason.message ++ ": " ++ Text.quoted name
  | .zeroInName => "embedded null byte"

/-! ## 2. Places -/

/-- The parts that lead from the root to a place. -/
abbrev Place := List (List Char)

/-- What stands at a place. -/
inductive Entry where
  | directory
  | file (content : List UInt8)
  /-- It takes everything and holds nothing. -/
  | void
  deriving DecidableEq, Repr

/-- What there is, and the directory one is in. -/
structure Files where
  here : Place
  entries : List (Place × Entry)

namespace Files

/-- What stands at a place. -/
def entry? (f : Files) (p : Place) : Option Entry :=
  if p.isEmpty then some .directory else (f.entries.find? (·.1 == p)).map (·.2)

/-- Puts an entry at a place, instead of what stood there. -/
def put (f : Files) (p : Place) (e : Entry) : Files :=
  { f with entries := f.entries.filter (·.1 != p) ++ [(p, e)] }

/-- The most bytes that a part of a name may have. -/
def partLimit : Nat := 255

/-- The most bytes that a name may have. -/
def nameLimit : Nat := 4095

/-- How many bytes a text has. -/
def size (cs : List Char) : Nat := (Text.Utf8.encode cs).length

/-- The place that a part leads to from a directory, which has to be a directory again. -/
def enter (f : Files) (p : Place) (part : List Char) : Except FileReason Place :=
  if partLimit < size part then .error .tooLong
  else if Path.isIdle part then .ok p
  else if part = ['.', '.'] then .ok p.dropLast
  else match f.entry? (p ++ [part]) with
    | none => .error .missing
    | some .directory => .ok (p ++ [part])
    | some _ => .error .noDirectory

/-- Where a name leads: to a directory, said by the name itself, or to a part in a directory, of
which the name may say that it has to be a directory.  Nobody has looked yet for what stands
there. -/
inductive Target where
  | directory (p : Place)
  | part (p : Place) (mustBeDirectory : Bool)
  deriving DecidableEq, Repr

/-- Where a row of parts leads from a directory. -/
def walkFrom (f : Files) (slashBehind : Bool) (p : Place) :
    List (List Char) → Except FileReason Target
  | [] => .ok (.directory p)
  | [last] =>
    if last = ['.'] ∨ last = ['.', '.'] then (f.enter p last).map .directory
    else .ok (.part (p ++ [last]) slashBehind)
  | part :: rest =>
    match f.enter p part with
    | .error reason => .error reason
    | .ok p' => f.walkFrom slashBehind p' rest

/-- Where a name leads. -/
def walk (f : Files) (name : List Char) : Except FileReason Target :=
  if name.isEmpty then .error .missing
  else if nameLimit < size name then .error .tooLong
  else
    let start := if name.head? = some '/' then [] else f.here
    f.walkFrom (name.getLast? == some '/') start ((Text.splitAt '/' name).filter (!·.isEmpty))

/-- The places that a row of parts leads through from a place, if it leads anywhere. -/
def placesFrom (p : Place) : List (List Char) → List Place
  | [] => []
  | part :: rest =>
    let p' :=
      if Path.isIdle part then p else if part = ['.', '.'] then p.dropLast else p ++ [part]
    p' :: placesFrom p' rest

/-- The places that a name leads through.  What stands at these decides where it leads. -/
def placesOn (start : Place) (name : List Char) : List Place :=
  placesFrom (if name.head? = some '/' then [] else start) (Text.splitAt '/' name)

/-- What `g` makes of a name, unless the name is refused at once. -/
def checked {α : Type} (name : List Char) (g : Except FileReason α) : Except FileFault α :=
  if name.contains '\x00' then .error .zeroInName else g.mapError (.refused · name)

/-! ## 3. Reading and writing -/

/-- What stands at a place, whose last part may be too long. -/
def look (f : Files) (p : Place) : Except FileReason (Option Entry) :=
  if partLimit < size (p.getLast?.getD []) then .error .tooLong else .ok (f.entry? p)

/-- The content of the file at a target. -/
def readTarget (f : Files) : Target → Except FileReason (List UInt8)
  | .directory _ => .error .directory
  | .part p mustBeDirectory =>
    match f.look p with
    | .error reason => .error reason
    | .ok none => .error .missing
    | .ok (some .directory) => .error .directory
    | .ok (some (.file content)) => if mustBeDirectory then .error .noDirectory else .ok content
    | .ok (some .void) => if mustBeDirectory then .error .noDirectory else .ok []

/-- The place of the file that may be written at a target.  A name that asks for a directory is
refused before anyone looks. -/
def writable (f : Files) : Target → Except FileReason Place
  | .directory _ => .error .directory
  | .part p mustBeDirectory =>
    if mustBeDirectory then .error .directory
    else match f.look p with
      | .error reason => .error reason
      | .ok (some .directory) => .error .directory
      | .ok _ => .ok p

/-- The files with a new content at a place; what takes everything stays what it is. -/
def store (f : Files) (content : List UInt8) (p : Place) : Files :=
  if f.entry? p = some .void then f else f.put p (.file content)

/-- The content of the file of that name. -/
def read (f : Files) (name : List Char) : Except FileFault (List UInt8) :=
  checked name ((f.walk name).bind f.readTarget)

/-- Writes a file of that name, instead of what it held. -/
def write (f : Files) (name : List Char) (content : List UInt8) : Except FileFault Files :=
  checked name (((f.walk name).bind f.writable).map (f.store content))

/-- Opens a file of that name for lines to be added: its place, and the files with it. -/
def openForMore (f : Files) (name : List Char) : Except FileFault (Place × Files) :=
  checked name (((f.walk name).bind f.writable).map fun p =>
    (p, if (f.entry? p).isSome then f else f.store [] p))

/-! ## 4. Directories -/

/-- Makes a directory at a target. -/
def makeDirectoryAt (f : Files) : Target → Except FileReason Files
  | .directory _ => .error .occupied
  | .part p _ =>
    match f.look p with
    | .error reason => .error reason
    | .ok none => .ok (f.put p .directory)
    | .ok (some _) => .error .occupied

/-- Makes a directory of that name. -/
def makeDirectory (f : Files) (name : List Char) : Except FileReason Files :=
  (f.walk name).bind f.makeDirectoryAt

/-- Whether there is a directory of that name. -/
def isDirectory (f : Files) (name : List Char) : Bool :=
  match f.walk name with
  | .ok (.directory _) => true
  | .ok (.part p _) => f.entry? p == some .directory
  | .error _ => false

/-- Makes a directory of that name unless there is one. -/
def makeMissing (f : Files) (name : List Char) : Except FileReason Files :=
  match f.makeDirectory name with
  | .ok f' => .ok f'
  | .error reason => if reason ≠ .missing ∧ f.isDirectory name then .ok f else .error reason

/-- Makes a directory and those above it, as far as there are none; `above` bounds how many. -/
def ensureWithin : (above : Nat) → Files → Path → Except FileFault Files
  | 0, f, p => (f.makeMissing p.text).mapError (.refused · p.text)
  | n + 1, f, p =>
    match f.makeMissing p.text with
    | .ok f' => .ok f'
    | .error .missing =>
      match ensureWithin n f p.parent with
      | .error fault => .error fault
      | .ok f' => (f'.makeMissing p.text).mapError (.refused · p.text)
    | .error reason => .error (.refused reason p.text)

/-- Makes a directory and those above it, as far as there are none. -/
def ensureDirectory (f : Files) (p : Path) : Except FileFault Files :=
  if p.text.contains '\x00' then .error .zeroInName else f.ensureWithin p.parts.length p

end Files
end MinionComputer
