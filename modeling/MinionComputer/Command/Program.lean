/-
# The program

All of a run of the program: its command line is read, its journal is set up, the request is
carried out, and what came of it is said.  The status is zero if all went well, one if something
is to be said to who asked, and two if the program itself is at fault.

* `Finished`: everything that a run leaves;
* `Program.run`: a run in a world with a command line.
-/
import MinionComputer.Command.Task
import MinionComputer.Journal

namespace MinionComputer

/-- How a run ends. -/
inductive Ending where
  /-- With a status, after the command line was taken up. -/
  | status (code : Nat)
  /-- With a status, while the command line was read. -/
  | exit (code : Nat)
  /-- With a fault that nothing takes care of: the file for the journal cannot be used. -/
  | escaped (f : FileFault)
  /-- Not at all: it waits for what is not there. -/
  | starved
  deriving DecidableEq, Repr

/-- Everything that a run leaves. -/
structure Finished where
  files : Files
  journal : Journal := {}
  out : List Char := []
  err : List Char := []
  ending : Ending

namespace Program

/-- The channels of the program. -/
def channels : List String := [commandChannel, "lmc_assembler", "lmc_emulator"]

/-- What the channels are to get. -/
def setups (s : Settings) : List Journal.Setup :=
  channels.map fun name => { name := name, console := s.console, file := s.logFile }

/-- What is said about a refusal, and how the run ends with it. -/
def refuse (w : World) (r : Refusal) : Finished :=
  match r.stop with
  | .help =>
    { files := w.files, ending := .exit 0,
      out := ((r.verb.map Verb.helpText).getD mainHelpText).toList }
  | .version =>
    { files := w.files, ending := .exit 0,
      out := (programName ++ " " ++ programVersion ++ "\n").toList }
  | .fault f =>
    let usage := (r.verb.map Verb.usage).getD mainUsage
    let name := programName ++ ((r.verb.map fun v => " " ++ v.word).getD "")
    { files := w.files, ending := .exit 2,
      err := (usage ++ "\n" ++ name ++ ": error: " ++ f.message ++ "\n").toList }

/-- The note on a fault of the program itself. -/
def internalNote (v : Verb) : Note :=
  ⟨.error, commandChannel, "Internal error in '" ++ v.word ++ "'"⟩

/-- What a deed leaves, when the journal is `j` and the verb is `v`. -/
def finish (j : Journal) (v : Verb) (d : Deed) : Finished :=
  let j := j.writeAll d.notes
  let left : Finished :=
    { files := d.files, journal := j, out := d.out, err := d.err, ending := .starved }
  match d.result with
  | .ok code => { left with ending := .status code }
  | .error (.said message) =>
    { left with err := d.err ++ ("Error: " ++ message ++ "\n").toList, ending := .status 1 }
  | .error .internal => { left with journal := j.write (internalNote v), ending := .status 2 }
  | .error .starved => left

/-- A run with a request. -/
def runRequest (w : World) (r : Request) : Finished :=
  let s := Settings.ofOptions r.options
  match Journal.setUpAll {} w.files (setups s) with
  | .error fault => { files := w.files, ending := .escaped fault }
  | .ok (j, files) => finish j r.verb (r.carryOut { w with files := files } s)

/-- The names of the files that a request reads. -/
def readNames (r : Request) : List (List Char) := r.input :: r.cases.toList

/-- The names of all files that a request has to do with. -/
def fileNames (r : Request) : List (List Char) :=
  readNames r ++ r.output.toList ++ (Settings.ofOptions r.options).logFile.toList

/-- A run with a command line. -/
def run (w : World) (words : List (List Char)) : Finished :=
  match Request.ofLine words with
  | .error refusal => refuse w refusal
  | .ok none => { files := w.files, out := mainHelpText.toList, ending := .status 0 }
  | .ok (some r) => runRequest w r

end Program
end MinionComputer
