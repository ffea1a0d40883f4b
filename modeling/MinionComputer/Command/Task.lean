/-
# Carrying out a request

Every request first reads what it works on, then does its work, and writes a file at the very end
if it writes one at all; so a request that is not carried out leaves all files as they were.

* `Loaded`: something read, with the notes on it, or why it cannot be read;
* `Deed`: what carrying out a request did;
* `Request.carryOut`: the deed of each request.
-/
import MinionComputer.Command.Line
import MinionComputer.Command.Execution
import MinionComputer.Device.LoopPort
import MinionComputer.Disassembly
import MinionComputer.Files.Basic
import MinionComputer.Image
import MinionComputer.Memory.Table
import MinionComputer.NumberList
import MinionComputer.Source.Assembly
import MinionComputer.Trial.Check

namespace MinionComputer

/-! ## 1. Complaints and deeds -/

/-- Why a request is not carried out. -/
inductive Complaint where
  /-- Something that who asked can understand. -/
  | said (message : String)
  /-- A fault of the program itself. -/
  | internal
  /-- The program that was executed waits for what is not there. -/
  | starved
  deriving DecidableEq, Repr

/-- What a request has to do with: the files, the standard input, whether that is a terminal, and
the ports that can be opened. -/
structure World where
  files : Files
  feed : Feed := { lines := [] }
  terminal : Bool := false
  ports : PortLibrary := .loopback

/-- What carrying out a request did: the files after it, notes, what was written to the two outputs,
and the status or the complaint it ended with. -/
structure Deed where
  files : Files
  notes : List Note := []
  out : List Char := []
  err : List Char := []
  result : Except Complaint Nat := .ok 0

/-- Something read, or why it cannot be read. -/
structure Loaded (α : Type) where
  notes : List Note
  result : Except Complaint α

/-- Goes on with what was read, or ends the deed without touching the files. -/
def Loaded.andThen {α : Type} (l : Loaded α) (f : Files) (k : α → Deed) : Deed :=
  match l.result with
  | .error c => { files := f, notes := l.notes, result := .error c }
  | .ok a => { k a with notes := l.notes ++ (k a).notes }

/-- A text on a line of its own. -/
def asLine (cs : List Char) : List Char := cs ++ ['\n']

/-! ## 2. Reading -/

/-- The text in a file, with line feeds for all line ends. -/
def readText (f : Files) (name : List Char) : Except Complaint (List Char) :=
  match f.read name with
  | .error fault => .error (.said fault.message)
  | .ok bytes =>
    match Text.Utf8.decode bytes with
    | .error fault => .error (.said fault.message)
    | .ok cs => .ok (Text.unifyLineEnds cs)

/-- The source text in a file, assembled. -/
def loadSource (f : Files) (s : Settings) (name : List Char) : Loaded (Source.Assembly × Memory) :=
  match readText f name with
  | .error c => ⟨[], .error c⟩
  | .ok text =>
    let a := Source.Assembly.ofSource s.extended text
    ⟨a.notes, (a.result.map fun m => (a, m)).mapError fun fault => .said fault.message⟩

/-- The list of numbers in a file, as a memory. -/
def loadNumbers (f : Files) (name : List Char) : Loaded Memory :=
  match readText f name with
  | .error c => ⟨[], .error c⟩
  | .ok text =>
    ⟨NumberList.notes text, (NumberList.toMemory text).mapError fun fault => .said fault.message⟩

/-- The image in a file, as a memory. -/
def loadImage (f : Files) (name : List Char) : Loaded Memory :=
  match f.read (Path.plain name) with
  | .error fault => ⟨[], .error (.said fault.message)⟩
  | .ok bytes =>
    ⟨[Image.loadedNote bytes (String.ofList name)],
      (Image.toMemory bytes).mapError fun fault => .said fault.message⟩

/-- Only the memory of a source text. -/
def loadProgram (f : Files) (s : Settings) (name : List Char) : Loaded Memory :=
  let l := loadSource f s name
  ⟨l.notes, l.result.map (·.2)⟩

/-! ## 3. Writing -/

/-- Writes the image of a memory. -/
def saveImage (f : Files) (name : List Char) (m : Memory) : Except FileFault (Files × List Note) :=
  let bytes := Image.ofMemory m
  (f.write (Path.plain name) bytes).map fun f' =>
    (f', [Image.savedNote bytes (String.ofList name)])

/-- Writes a text. -/
def saveText (f : Files) (name text : List Char) : Except FileFault (Files × List Note) :=
  (f.write name (Text.Utf8.encode text)).map fun f' => (f', [])

/-- All cells as numbers, one a line. -/
def numberText (m : Memory) : List Char :=
  asLine (Text.joinWith '\n' (m.toList.map fun c => Text.decimal c.val))

/-- Writes what was assembled in the form that the ending of the name asks for. -/
def saveAssembly (f : Files) (name : List Char) (a : Source.Assembly) (m : Memory) :
    Except FileFault (Files × List Note) :=
  let ending := String.ofList (Text.lowerAscii (extension name))
  if ending = ".lst" then saveText f name (asLine a.listing)
  else if ending = ".txt" then saveText f name (numberText m)
  else saveImage f name m

/-- The deed of writing a file and then saying so, when `out` was written before. -/
def Deed.ofSaving (f : Files) (out done : List Char) :
    Except FileFault (Files × List Note) → Deed
  | .error fault => { files := f, out := out, result := .error (.said fault.message) }
  | .ok (f', notes) => { files := f', notes := notes, out := out ++ asLine done }

/-! ## 4. Requests that do not execute anything -/

/-- Assembles a source text: its listing, a file, or both. -/
def carryOutAsm (w : World) (s : Settings) (r : Request) : Deed :=
  (loadSource w.files s r.input).andThen w.files fun (a, m) =>
    match r.output.filter (!·.isEmpty) with
    | none => { files := w.files, out := asLine a.listing }
    | some name =>
      .ofSaving w.files (if r.listing then asLine a.listing else [])
        ("Assembled ".toList ++ Text.decimal a.symbols.length ++ " labels -> ".toList ++ name)
        (saveAssembly w.files name a m)

/-- Makes an image of a list of numbers. -/
def carryOutNums (w : World) (r : Request) : Deed :=
  (loadNumbers w.files r.input).andThen w.files fun m =>
    let name := r.output.getD []
    .ofSaving w.files [] ("Wrote image -> ".toList ++ name) (saveImage w.files name m)

/-- Shows an image as a table. -/
def carryOutDump (w : World) (r : Request) : Deed :=
  (loadImage w.files r.input).andThen w.files fun m =>
    { files := w.files, out := asLine m.table }

/-- Shows an image as instructions. -/
def carryOutDisasm (w : World) (r : Request) : Deed :=
  (loadImage w.files r.input).andThen w.files fun m =>
    { files := w.files, out := if r.source then m.sourceText else asLine m.listing }

/-! ## 5. Requests that execute a program -/

/-- A fault of a port, as a complaint. -/
def Complaint.ofPort (f : PortFault) : Complaint :=
  match f with
  | .unforeseen _ => .internal
  | _ => .said f.message

/-- A fault of a handler, as a complaint. -/
def Complaint.ofHandler : HandlerFault → Complaint
  | .unimplemented => .internal
  | .console (.undecodable f) => .said f.message
  | .console (.code .range) => .said CodeFault.range.message
  | .console (.code .width) => .internal
  | .console .waiting => .starved
  | .port f => .ofPort f

/-- What an execution came to, as a status or a complaint. -/
def statusOf : Except ExecutionFault Unit → Except Complaint Nat
  | .ok () => .ok 0
  | .error (.refused message) => .error (.said message)
  | .error (.drive .starved) => .error .starved
  | .error (.drive (.step (.address n))) => .error (.said (FetchFault.address n).message)
  | .error (.drive (.step (.device f))) => .error (.ofHandler f)

/-- What a handler wrote to the standard output. -/
def outOf : Handler → List Char
  | .console c => c.out.toList
  | _ => []

/-- The deed of executing a program. -/
def Deed.ofExecution (f : Files) (e : Execution) : Deed :=
  { files := f, notes := e.notes, out := outOf e.handler, err := e.said,
    result := statusOf e.result }

/-- The serial line that the settings name, opened. -/
def openLine (ports : PortLibrary) (name : String) (s : Settings) : Loaded Handler :=
  let a := (SerialLine.closed (some name) s.baud).connect ports
  match a.value with
  | .error f => ⟨a.notes, .error (.ofPort f)⟩
  | .ok false => ⟨a.notes, .error (.said ("Could not open serial port " ++ name))⟩
  | .ok true => ⟨a.notes, .ok (.serial a.state)⟩

/-- Executes a program on the line that the settings name, or else on the console. -/
def executeProgram (w : World) (s : Settings) (m : Memory) : Deed :=
  match s.port.filter (!·.isEmpty) with
  | some name =>
    (openLine w.ports name s).andThen w.files fun h => .ofExecution w.files (execute s m h true)
  | none =>
    let console : Handler := .console { feed := w.feed, prompting := w.terminal }
    .ofExecution w.files (execute s m console false)

/-- Reads a program with `load` and executes it. -/
def carryOutRun (w : World) (s : Settings) (load : Loaded Memory) : Deed :=
  load.andThen w.files fun m => executeProgram w s m

/-! ## 6. Test cases -/

/-- The cases in a file.  A name that stands for nothing is a fault that the command line should
have been turned down for. -/
def loadCases (f : Files) : Option (List Char) → Loaded (List Trial.Case)
  | none => ⟨[], .error .internal⟩
  | some name =>
    match readText f name with
    | .error c => ⟨[], .error c⟩
    | .ok text => ⟨[], (Trial.Case.ofText text).mapError fun fault => .said fault.message⟩

/-- Whether a name ends as the names of source texts do. -/
def isSourceName (name : List Char) : Bool :=
  ".lmc".toList.isSuffixOf (Text.lowerAscii name)

/-- The program that a name stands for: a source text or an image. -/
def loadEither (f : Files) (s : Settings) (name : List Char) : Loaded Memory :=
  if isSourceName name then loadProgram f s name else loadImage f name

/-- The line on a case, which is the one of that number. -/
def entryLine (number : Nat) (e : Trial.Entry) : List Char :=
  let name := match e.case.name with
    | some (c :: r) => c :: r
    | _ => '#' :: Text.decimal number
  match e.failure with
  | none => "PASS  ".toList ++ name ++ "  (".toList ++ Text.padded 0 e.steps ++ " steps)".toList
  | some f => "FAIL  ".toList ++ name ++ "  ".toList ++ f.message.toList

/-- How many cases did not pass. -/
def failures (es : List Trial.Entry) : Nat := (es.filter (·.failure.isSome)).length

/-- The lines on all cases, and the count. -/
def reportText (es : List Trial.Entry) : List Char :=
  (Text.numbered es).flatMap (fun x => asLine (entryLine x.1 x.2)) ++
    asLine (Text.decimal (es.length - failures es) ++ '/' :: Text.decimal es.length ++
      " passed".toList)

/-- A case that could not be carried out, as a complaint. -/
def Complaint.ofTrouble : Trial.Trouble → Complaint
  | .failure f => .said f.message
  | .code .range => .said CodeFault.range.message
  | .code .width => .internal
  | .address n => .said (FetchFault.address n).message

/-- The deed of running cases on a memory. -/
def Deed.ofCases (f : Files) (m : Memory) (cases : List Trial.Case) : Deed :=
  let (notes, result) := Trial.runAll m cases
  match result with
  | .error t => { files := f, notes := notes, result := .error (.ofTrouble t) }
  | .ok es =>
    { files := f, notes := notes, out := reportText es,
      result := .ok (if failures es = 0 then 0 else 1) }

/-- Runs the cases of a file on a program. -/
def carryOutTest (w : World) (s : Settings) (r : Request) : Deed :=
  (loadEither w.files s r.input).andThen w.files fun m =>
    (loadCases w.files r.cases).andThen w.files fun cases => .ofCases w.files m cases

/-! ## 7. All requests -/

/-- Carries out a request. -/
def Request.carryOut (w : World) (s : Settings) (r : Request) : Deed :=
  match r.verb with
  | .asm => carryOutAsm w s r
  | .nums => carryOutNums w r
  | .run => carryOutRun w s (loadImage w.files r.input)
  | .runAsm => carryOutRun w s (loadProgram w.files s r.input)
  | .runNums => carryOutRun w s (loadNumbers w.files r.input)
  | .dump => carryOutDump w r
  | .disasm => carryOutDisasm w r
  | .test => carryOutTest w s r

end MinionComputer
