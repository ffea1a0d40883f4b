/-
# Reading a command line

The words of a command line are read from the left.  Whatever stands before the verb is for the
program itself, and all that stands behind it is for the verb.  A long switch may be cut short as
long as one switch alone begins like that, and its value may follow an equals sign; short switches
may be written together behind one dash.  After two dashes alone every word is an operand.

* `Token.ofWord`: what a word is by its form;
* `Reading.ofTokens`: switches with their values, operands, and what nothing could be made of;
* `Request.ofLine`: what a command line asks for, or why and how it is turned down.
-/
import MinionComputer.Command.Verb
import MinionComputer.Command.Settings
import MinionComputer.Text.Numeral
import MinionComputer.Text.Quoted

namespace MinionComputer

/-! ## 1. Faults -/

/-- What is wrong with a command line. -/
inductive LineFault where
  /-- Several switches begin like the word. -/
  | ambiguous (word : List Char)
  /-- A value for a switch that takes none. -/
  | unwantedValue (s : Switch) (value : List Char)
  /-- No value for a switch that takes one. -/
  | missingValue (s : Switch)
  /-- A value that is no number for a switch that takes one. -/
  | noNumber (s : Switch) (value : List Char)
  /-- Switches and operands that a verb cannot do without. -/
  | missing (names : List String)
  /-- No verb. -/
  | noVerb (word : List Char)
  /-- Words that nothing could be made of. -/
  | leftover (words : List (List Char))
  deriving DecidableEq, Repr

/-- The wording of a fault. -/
def LineFault.message : LineFault → String
  | .ambiguous w => "ambiguous option: " ++ String.ofList w
  | .unwantedValue s v => "argument " ++ s.long ++ ": ignored explicit argument " ++ Text.quoted v
  | .missingValue s => "argument " ++ s.long ++ ": expected one argument"
  | .noNumber s v => "argument " ++ s.long ++ ": invalid int value: " ++ Text.quoted v
  | .missing names => "the following arguments are required: " ++ String.intercalate ", " names
  | .noVerb w => "argument command: invalid choice: " ++ Text.quoted w
  | .leftover ws =>
    "unrecognized arguments: " ++ String.intercalate " " (ws.map String.ofList)

/-- Why reading ends before the end of the line. -/
inductive Stop where
  | help
  | version
  | fault (f : LineFault)
  deriving DecidableEq, Repr

/-! ## 2. Words -/

/-- What is attached to a switch in the same word: nothing, a text behind an equals sign, or a text
right behind a short name. -/
inductive Attachment where
  | nothing
  | equals (value : List Char)
  | joined (text : List Char)
  deriving DecidableEq, Repr

/-- What a word is: an operand, the two dashes, a switch, or something like a switch. -/
inductive Token where
  | operand (w : List Char)
  | dashes
  | switch (s : Switch) (a : Attachment)
  | unknown (w : List Char)
  deriving DecidableEq, Repr

/-- The names of switches. -/
abbrev NameTable := List (List Char × Switch)

/-- The names of some switches. -/
def nameTable (switches : List Switch) : NameTable :=
  switches.flatMap fun s => s.names.map fun n => (n.toList, s)

/-- The switch of that name. -/
def NameTable.switch? (t : NameTable) (name : List Char) : Option Switch :=
  (t.find? (·.1 == name)).map (·.2)

/-- Whether a name or the beginning of one starts with two dashes. -/
def isLong : List Char → Bool
  | '-' :: '-' :: _ => true
  | _ => false

/-- A word cut at its first equals sign: what may be the name of a switch, and what is attached. -/
def cutAtEquals (w : List Char) : List Char × Attachment :=
  match w.dropWhile (· != '=') with
  | [] => (w, .nothing)
  | _ :: value => (w.takeWhile (· != '='), .equals value)

/-- Whether a word looks like a number below zero: digits behind a dash, or digits with a point
before the last of them.  A line feed at the end does not matter. -/
def isNegativeNumeral (w : List Char) : Bool :=
  match w with
  | '-' :: body =>
    let digits := if body.getLast? = some '\n' then body.dropLast else body
    let behind := digits.dropWhile Text.isDigit
    Text.isNumeral digits ||
      match behind with
      | '.' :: fraction => Text.isNumeral fraction
      | _ => false
  | _ => false

/-- What a word is that starts like a switch and is not the name of one. -/
def Token.ofLike (t : NameTable) (w : List Char) : Except LineFault Token :=
  let otherwise : Token :=
    if isNegativeNumeral w || w.contains ' ' then .operand w else .unknown w
  let (name, attachment) := cutAtEquals w
  match if attachment = .nothing then none else t.switch? name with
  | some s => .ok (.switch s attachment)
  | none =>
    if isLong w then
      match t.filter fun x => name.isPrefixOf x.1 with
      | [] => .ok otherwise
      | [x] => .ok (.switch x.2 attachment)
      | _ => .error (.ambiguous w)
    else
      match t.switch? (w.take 2) with
      | some s => .ok (.switch s (.joined (w.drop 2)))
      | none => .ok otherwise

/-- What a word before any two dashes is. -/
def Token.ofWord (t : NameTable) (w : List Char) : Except LineFault Token :=
  match w with
  | [] => .ok (.operand w)
  | c :: rest =>
    if c != '-' then .ok (.operand w)
    else match t.switch? w with
      | some s => .ok (.switch s .nothing)
      | none => if rest.isEmpty then .ok (.operand w) else Token.ofLike t w

/-- What each of the words is. -/
def tokens (t : NameTable) : List (List Char) → Except LineFault (List Token)
  | [] => .ok []
  | w :: rest =>
    if w = ['-', '-'] then .ok (.dashes :: rest.map .operand)
    else (Token.ofWord t w).bind fun x => (tokens t rest).map (x :: ·)

/-! ## 3. Switches with their values -/

/-- A switch with the text of its value, empty for a switch that takes none. -/
structure Given where
  switch : Switch
  value : List Char
  deriving DecidableEq, Repr

/-- What a word comes to that holds switches: those that are complete, perhaps a last one that still
needs its value, and perhaps a rest that nothing could be made of. -/
structure Spelling where
  given : List Given := []
  wanting : Option Switch := none
  leftover : Option (List Char) := none
  deriving DecidableEq, Repr

/-- A spelling with one complete switch more in front. -/
def Spelling.withGiven (g : Given) (s : Spelling) : Spelling := { s with given := g :: s.given }

/-- A switch with nothing attached. -/
def Spelling.alone (s : Switch) : Spelling :=
  if s.form = .none then { given := [⟨s, []⟩] } else { wanting := some s }

/-- A switch with a value. -/
def Spelling.withValue (s : Switch) (value : List Char) : Except LineFault Spelling :=
  if s.form = .none then .error (.unwantedValue s value) else .ok { given := [⟨s, value⟩] }

/-- A short switch with a text right behind it: its value, or further short switches if it takes
none.  Behind the first of them an equals sign before the value is left out. -/
def Spelling.joined (t : NameTable) : (further : Bool) → Switch → List Char →
    Except LineFault Spelling
  | _, s, [] => withValue s []
  | further, s, c :: rest =>
    if s.form ≠ .none then withValue s (if further && c == '=' then rest else c :: rest)
    else if c == '-' || (further && c == '=') then .error (.unwantedValue s (c :: rest))
    else match t.switch? ['-', c] with
      | none => .ok { given := [⟨s, []⟩], leftover := some ('-' :: c :: rest) }
      | some next =>
        (if rest.isEmpty then .ok (alone next) else joined t true next rest).map (withGiven ⟨s, []⟩)

/-- What a switch comes to. -/
def Spelling.ofSwitch (t : NameTable) (s : Switch) : Attachment → Except LineFault Spelling
  | .nothing => .ok (alone s)
  | .equals value => withValue s value
  | .joined text => joined t false s text

/-- Whether a switch with its value lets reading go on. -/
def Given.check (g : Given) : Except Stop Unit :=
  if g.switch = .help then .error .help
  else if g.switch = .version then .error .version
  else match g.switch.form, Text.readInteger g.value with
    | .number, .error _ => .error (.fault (.noNumber g.switch g.value))
    | _, _ => .ok ()

/-- Whether switches with their values let reading go on. -/
def checkAll : List Given → Except Stop Unit
  | [] => .ok ()
  | g :: rest => g.check.bind fun _ => checkAll rest

/-! ## 4. Readings -/

/-- What has been read.  An operand may be there and stand for nothing. -/
structure Reading where
  given : List Given := []
  operands : List (Option (List Char)) := []
  leftover : List (List Char) := []
  deriving DecidableEq, Repr

namespace Reading

/-- A reading with one operand more in front. -/
def withOperand (w : Option (List Char)) (r : Reading) : Reading :=
  { r with operands := w :: r.operands }

/-- A reading with one leftover more in front. -/
def withLeftover (w : List Char) (r : Reading) : Reading := { r with leftover := w :: r.leftover }

/-- A reading with what a word with switches came to in front. -/
def withSpelling (x : Spelling) (r : Reading) : Reading :=
  { r with given := x.given ++ r.given, leftover := x.leftover.toList ++ r.leftover }

/-- Reads tokens when so many operands are still `wanted`.  The two dashes belong to the operand
behind them, or else to the one before.  Further two dashes are an operand, which stands for nothing
unless it has the first ones before it. -/
def ofTokens (t : NameTable) : (wanted : Nat) → List Token → Except Stop Reading
  | _, [] => .ok {}
  | wanted, .unknown w :: rest => (ofTokens t wanted rest).map (withLeftover w)
  | wanted, .switch s a :: rest =>
    match Spelling.ofSwitch t s a with
    | .error f => .error (.fault f)
    | .ok x =>
      match x.wanting, rest with
      | none, rest => (checkAll x.given).bind fun _ => (ofTokens t wanted rest).map (withSpelling x)
      | some last, .operand w :: rest' =>
        let x := { x with given := x.given ++ [⟨last, w⟩] }
        (checkAll x.given).bind fun _ => (ofTokens t wanted rest').map (withSpelling x)
      | some last, _ => .error (.fault (.missingValue last))
  | 0, .dashes :: rest => (ofTokens t 0 rest).map (withLeftover ['-', '-'])
  | n + 1, .dashes :: .operand w :: rest => (ofTokens t n rest).map (withOperand (some w))
  | n + 1, .dashes :: rest => (ofTokens t (n + 1) rest).map (withLeftover ['-', '-'])
  | 0, .operand w :: rest => (ofTokens t 0 rest).map (withLeftover w)
  | n + 1, .operand w :: .dashes :: rest => (ofTokens t n rest).map (withOperand (some w))
  | n + 1, .operand w :: rest =>
    (ofTokens t n rest).map (withOperand (if w = ['-', '-'] then none else some w))

/-- The value of a switch that was given last. -/
def value? (r : Reading) (s : Switch) : Option (List Char) :=
  (r.given.reverse.find? (·.switch == s)).map (·.value)

/-- Whether a switch was given. -/
def has (r : Reading) (s : Switch) : Bool := r.given.any (·.switch == s)

/-- The number that a switch was given. -/
def number? (r : Reading) (s : Switch) : Option Int :=
  (r.value? s).bind fun w => (Text.readInteger w).toOption

/-- What the switches say. -/
def options (r : Reading) : Options where
  verbosity := some ((r.given.filter (·.switch == .verbose)).length : Int)
  quiet := r.has .quiet
  logFile := r.value? .logFile
  maxSteps := r.number? .maxSteps
  plainOnly := r.has .noExtended
  tracing := r.has .trace
  port := (r.value? .serial).map String.ofList
  baud := r.number? .baud

/-- The names of what a verb cannot do without and has not got. -/
def missing (v : Verb) (r : Reading) : List String :=
  v.operands.drop r.operands.length ++
    (v.required.filter fun s => !r.has s).map fun s => String.intercalate "/" s.names

/-- Reads the words behind a verb. -/
def ofWords (v : Verb) (words : List (List Char)) : Except Stop Reading :=
  let t := nameTable v.switches
  match tokens t words with
  | .error f => .error (.fault f)
  | .ok ts =>
    match ofTokens t v.operands.length ts with
    | .error stop => .error stop
    | .ok r => if (missing v r).isEmpty then .ok r else .error (.fault (.missing (missing v r)))

end Reading

/-! ## 5. Requests -/

/-- What a command line asks for. -/
structure Request where
  verb : Verb
  options : Options
  /-- The file to be read. -/
  input : List Char
  /-- The file of test cases, unless what was given for it stands for nothing. -/
  cases : Option (List Char)
  output : Option (List Char)
  listing : Bool
  source : Bool
  deriving DecidableEq, Repr

/-- What a reading asks for. -/
def Request.ofReading (v : Verb) (r : Reading) : Request where
  verb := v
  options := r.options
  input := (r.operands.getD 0 none).getD []
  cases := r.operands.getD 1 none
  output := r.value? .output
  listing := r.has .listing
  source := r.has .source

/-- A command line that is turned down: the verb that was being read, and why. -/
structure Refusal where
  verb : Option Verb
  stop : Stop
  deriving DecidableEq, Repr

/-- The words before the verb that nothing could be made of, and the verb with the words behind
it. -/
structure Opening where
  leftover : List (List Char)
  verb : Option (List Char × List (List Char))
  deriving DecidableEq, Repr

/-- Reads up to the verb; every token comes with its word. -/
def Opening.ofTokens (t : NameTable) : List (Token × List Char) → Except Stop Opening
  | [] => .ok ⟨[], none⟩
  | (.operand w, _) :: rest => .ok ⟨[], some (w, rest.map (·.2))⟩
  | (.dashes, w) :: rest =>
    if rest.isEmpty then .ok ⟨[w], none⟩ else .error (.fault (.noVerb w))
  | (.unknown w, _) :: rest =>
    (Opening.ofTokens t rest).map fun o => { o with leftover := w :: o.leftover }
  | (.switch s a, _) :: rest =>
    match Spelling.ofSwitch t s a with
    | .error f => .error (.fault f)
    | .ok x =>
      (checkAll x.given).bind fun _ =>
        (Opening.ofTokens t rest).map fun o =>
          { o with leftover := x.leftover.toList ++ o.leftover }

/-- The words as far as the verb. -/
def Opening.ofWords (words : List (List Char)) : Except Stop Opening :=
  let t := nameTable mainSwitches
  match tokens t words with
  | .error f => .error (.fault f)
  | .ok ts => Opening.ofTokens t (ts.zip words)

/-- A refusal of what was left over, if anything was. -/
def refuseLeftover (words : List (List Char)) : Except Refusal Unit :=
  if words.isEmpty then .ok () else .error ⟨none, .fault (.leftover words)⟩

/-- What a command line asks for; nothing if it has no words at all. -/
def Request.ofLine (words : List (List Char)) : Except Refusal (Option Request) :=
  match Opening.ofWords words with
  | .error stop => .error ⟨none, stop⟩
  | .ok ⟨before, none⟩ => (refuseLeftover before).map fun _ => none
  | .ok ⟨before, some (w, rest)⟩ =>
    match Verb.ofWord? w with
    | none => .error ⟨none, .fault (.noVerb w)⟩
    | some v =>
      match Reading.ofWords v rest with
      | .error stop => .error ⟨some v, stop⟩
      | .ok r =>
        (refuseLeftover (before ++ r.leftover)).map fun _ => some (Request.ofReading v r)

end MinionComputer
