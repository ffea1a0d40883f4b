/-
# The command line

What a run needs is looked up before it, and what it leaves is put where it belongs after it.  The
standard input is read as far as the program that is executed asks for it: from a terminal line by
line, and otherwise at once.

* `main`: a run with the words of the command line.
-/
import MinionComputer.Command.Program

namespace MinionComputer

/-! ## 1. Before the run -/

/-- The name that leads to a place from the root. -/
def nameOf (p : Place) : String := String.ofList ('/' :: Text.joinWith '/' p)

/-- Whether a name leads anywhere. -/
def isThere (name : String) : IO Bool :=
  (do discard (IO.FS.realPath name); return true) <|> return false

/-- What stands at a place.  What a file holds matters only if it is read. -/
def lookUp (reading : Bool) (p : Place) : IO (Option Entry) := do
  let name := nameOf p
  if ← isThere (name ++ "/.") then return some .directory
  else if ← isThere name then
    let content ← if reading then IO.FS.readBinFile name else pure .empty
    return some (.file content.toList)
  else return none

/-- What the command line has to do with. -/
def filesFor (words : List (List Char)) : IO Files := do
  let here := ((← IO.FS.realPath ".").toString.toList |> Path.ofText).parts
  let mut files : Files := ⟨here, []⟩
  if let .ok (some request) := Request.ofLine words then
    let target (name : List Char) := (Files.placesOn here name).getLast?
    let read := (Program.readNames request).filterMap target
    for p in ((Program.fileNames request).flatMap (Files.placesOn here)).eraseDups do
      if let some entry ← lookUp (read.contains p) p then files := files.put p entry
  return files

/-! ## 2. After the run -/

/-- A note on a line. -/
def lineOf (n : Note) : String :=
  String.ofList (Text.leftAligned 7 n.level.name.toList) ++ " | " ++ n.channel ++ " | " ++ n.message

/-- Makes what is new, and adds the notes that belong to files. -/
def putAway (old : Files) (f : Finished) : IO Unit := do
  for (p, entry) in f.files.entries do
    if old.entry? p ≠ some entry then
      match entry with
      | .directory => IO.FS.createDir (nameOf p)
      | .file content => IO.FS.writeBinFile (nameOf p) ⟨content.toArray⟩
      | .void => pure ()
  for p in f.journal.places do
    let file ← IO.FS.Handle.mk (nameOf p) .append
    for n in f.journal.entriesAt (.file p) do file.putStrLn (lineOf n)

/-! ## 3. The run -/

/-- How much of a run has been shown. -/
structure Shown where
  out : Nat := 0
  notes : Nat := 0

/-- Shows what a run tells and writes, as far as it has not been shown. -/
def showMore (shown : Shown) (f : Finished) : IO Shown := do
  let notes := f.journal.entriesAt .styled
  for n in notes.drop shown.notes do IO.eprintln (lineOf n)
  IO.print (String.ofList (f.out.drop shown.out))
  (← IO.getStdout).flush
  return ⟨f.out.length, notes.length⟩

/-- Everything that is left of a stream. -/
partial def readAll (input : IO.FS.Stream) (before : ByteArray) : IO ByteArray := do
  let more ← input.read 4096
  if more.isEmpty then return before else readAll input (before ++ more)

/-- Runs with the input known so far, and again with more of it while the run waits for more. -/
partial def runWith (input : IO.FS.Stream) (world : World) (words : List (List Char))
    (text : List Char) (shown : Shown) : IO Finished := do
  let f := Program.run world words
  let shown ← showMore shown f
  if f.ending ≠ .starved ∨ ¬ world.feed.growing then return f
  else if world.terminal then
    let line ← input.getLine
    let text := text ++ line.toList
    let feed := { Feed.ofText text with growing := !line.isEmpty }
    runWith input { world with feed := feed } words text shown
  else
    let feed := Feed.ofBytes (← readAll input .empty).toList
    runWith input { world with feed := feed } words text shown

/-- Waits for what cannot arrive. -/
partial def waitForever : IO UInt32 := do
  IO.sleep 1000
  waitForever

/-- The status for the system, at the end of a run. -/
def finalStatus (f : Finished) : IO UInt32 :=
  match f.ending with
  | .status code => return .ofNat code
  | .exit code => return .ofNat code
  | .escaped fault => do
    IO.eprintln fault.message
    return 1
  | .starved => waitForever

/-- A run with the words of a command line. -/
def runWords (words : List (List Char)) : IO UInt32 := do
  let input ← IO.getStdin
  let files ← filesFor words
  let world : World :=
    { files := files, feed := { lines := [], growing := true }, terminal := ← input.isTty }
  let f ← runWith input world words [] {}
  putAway files f
  IO.eprint (String.ofList f.err)
  finalStatus f

end MinionComputer

/-- The program: a run with the words of the command line. -/
def main (args : List String) : IO UInt32 := MinionComputer.runWords (args.map String.toList)
