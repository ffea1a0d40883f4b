/-
# Journals

A journal decides what becomes of notes.  Channels have names with dots, and a channel stands
below those whose names come before its dots; all stand below the root.  A note that is urgent
enough for its channel goes to the outlets of the channel and of all channels above it, and each
outlet takes it if it is urgent enough for the outlet.

* `Journal.chain`: a channel and those above it;
* `Journal.urgency`: how urgent a note on a channel must be;
* `Journal.write`: one note;
* `Journal.setUp`: gives a channel its outlets, once.
-/
import MinionComputer.Note
import MinionComputer.Files.Basic

namespace MinionComputer

/-! ## 1. Channels and outlets -/

/-- Where an outlet leads. -/
inductive Sink where
  /-- To the end of a file. -/
  | file (p : Place)
  /-- To the console, with colours and columns. -/
  | styled
  /-- To the console, line by line. -/
  | plain
  deriving DecidableEq, Repr

/-- A sink, and how urgent a note for it must be. -/
structure Outlet where
  sink : Sink
  threshold : Level
  deriving DecidableEq, Repr

/-- A channel: its name, how urgent its notes must be, and its outlets.  A threshold of rank zero
leaves that to the channels above. -/
structure Channel where
  name : String
  threshold : Level := ⟨0⟩
  outlets : List Outlet := []
  deriving DecidableEq, Repr

/-- The name of the channel above all others. -/
def rootName : String := "root"

/-- The names above a name that is given backwards, the nearest first: what stands before its dots.
A dot right before another one does not count, and neither does one at the very front. -/
def namesAbove : (backwards : List Char) → List (List Char)
  | [] => []
  | c :: r =>
    if c != '.' then namesAbove r
    else match r with
      | [] => []
      | d :: r' => (d :: r').reverse :: namesAbove r'

/-- The channels there are, the notes that were urgent enough for their channels, and what has been
written to each sink. -/
structure Journal where
  channels : List Channel := [⟨rootName, .warning, []⟩]
  told : Array Note := #[]
  entries : Array (Sink × Note) := #[]

namespace Journal

/-- The name that a channel goes by; a channel without one is the root. -/
def properName (name : String) : String := if name.isEmpty then rootName else name

/-- The channel of that name. -/
def channel? (j : Journal) (name : String) : Option Channel := j.channels.find? (·.name == name)

/-- The nearest channel above a name. -/
def above (j : Journal) (name : String) : String :=
  (((namesAbove name.toList.reverse).map String.ofList).find? fun n => (j.channel? n).isSome).getD
    rootName

/-- The names of a channel and of those above it, at most `height` of them below the root. -/
def namesFrom (j : Journal) : (height : Nat) → String → List String
  | 0, _ => [rootName]
  | h + 1, name =>
    if name = rootName then [rootName] else name :: j.namesFrom h (j.above name)

/-- The channel of a name and the channels above it, up to the root. -/
def chain (j : Journal) (name : String) : List Channel :=
  (j.namesFrom name.length name).filterMap j.channel?

/-- How urgent a note on a channel must be: the nearest threshold that is set. -/
def urgency (j : Journal) (name : String) : Level :=
  (((j.chain name).map (·.threshold)).find? (·.rank != 0)).getD ⟨0⟩

/-! ## 2. Writing -/

/-- Whether a note is urgent enough for a threshold. -/
def isUrgent (n : Note) (threshold : Level) : Bool := decide (threshold.rank ≤ n.level.rank)

/-- The sinks that a note comes to if it is urgent enough for its channel, in order. -/
def sinksOf (j : Journal) (n : Note) : List Sink :=
  (((j.chain n.channel).flatMap (·.outlets)).filter fun o => isUrgent n o.threshold).map (·.sink)

/-- The journal with one more note.  A note whose level is zero or less is not written at all. -/
def write (j : Journal) (n : Note) : Journal :=
  let n : Note := { n with channel := properName n.channel }
  if 0 < n.level.rank ∧ isUrgent n (j.urgency n.channel) then
    { j with
      told := j.told.push n
      entries := j.entries ++ ((j.sinksOf n).map fun s => (s, n)).toArray }
  else j

/-- The journal with more notes. -/
def writeAll (j : Journal) (notes : List Note) : Journal := notes.foldl write j

/-- What has been written to a sink. -/
def entriesAt (j : Journal) (s : Sink) : List Note :=
  (j.entries.toList.filter (·.1 == s)).map (·.2)

/-- The files that outlets lead to. -/
def places (j : Journal) : List Place :=
  ((j.channels.flatMap (·.outlets)).filterMap fun o =>
    match o.sink with
    | .file p => some p
    | _ => none).eraseDups

/-! ## 3. Setting up -/

/-- What a channel is to get: its threshold, an outlet to the console with a threshold of its own,
and perhaps one to a file. -/
structure Setup where
  name : String := "lmc_emulator"
  threshold : Level := .debug
  console : Level := .warning
  file : Option (List Char) := none
  styled : Bool := true

/-- The outlet to a file of that name, which is made with the directories it needs. -/
def fileOutlet (f : Files) (name : List Char) : Except FileFault (Outlet × Files) :=
  let p := Path.ofText name
  match f.ensureDirectory p.parent with
  | .error fault => .error fault
  | .ok f' => (f'.openForMore p.text).map fun x => (⟨.file x.1, .debug⟩, x.2)

/-- The outlets to files for a setup. -/
def fileOutlets (f : Files) (s : Setup) : Except FileFault (List Outlet × Files) :=
  match s.file with
  | none => .ok ([], f)
  | some name => (fileOutlet f name).map fun x => ([x.1], x.2)

/-- The notes on a channel that was set up. -/
def setupNotes (s : Setup) : List Note :=
  ⟨.debug, s.name,
    "Logger initialized: " ++ s.name ++ " (console level " ++ s.console.name ++ ")"⟩ ::
    s.file.toList.map fun name =>
      ⟨.debug, s.name, "Log file: " ++ String.ofList (Path.plain name)⟩

/-- The journal with a channel, instead of one of that name. -/
def putChannel (j : Journal) (c : Channel) : Journal :=
  { j with channels := j.channels.filter (·.name != c.name) ++ [c] }

/-- Sets a channel up.  One that has outlets already stays what it is. -/
def setUp (j : Journal) (f : Files) (s : Setup) : Except FileFault (Journal × Files) :=
  let name := properName s.name
  if ((j.channel? name).map (·.outlets)).any (!·.isEmpty) then .ok (j, f)
  else match fileOutlets f s with
    | .error fault => .error fault
    | .ok (outlets, f') =>
      let console : Outlet := ⟨if s.styled then .styled else .plain, s.console⟩
      .ok ((j.putChannel ⟨name, s.threshold, outlets ++ [console]⟩).writeAll (setupNotes s), f')

/-- Sets channels up, one after another. -/
def setUpAll (j : Journal) (f : Files) : List Setup → Except FileFault (Journal × Files)
  | [] => .ok (j, f)
  | s :: rest =>
    match j.setUp f s with
    | .error fault => .error fault
    | .ok (j', f') => j'.setUpAll f' rest

end Journal
end MinionComputer
