/-
# Verbs and switches

A command line names one of eight verbs, and says more with switches and operands.  A switch has a
long name, perhaps a short one too, and stands alone or is followed by a value.

* `Switch`: the switches, with their names and forms;
* `Verb`: the verbs, with the switches and operands each takes;
* `Verb.usage`, `mainUsage`: how to write a command line.
-/
import MinionComputer.Text.Numeral

namespace MinionComputer

/-! ## 1. Switches -/

/-- What a switch says. -/
inductive Switch where
  | help
  | version
  | verbose
  | quiet
  | logFile
  | maxSteps
  | trace
  | serial
  | baud
  | noExtended
  | output
  | listing
  | source
  deriving DecidableEq, Repr

/-- What follows a switch. -/
inductive ValueForm where
  | none
  | text
  | number
  deriving DecidableEq, Repr

namespace Switch

/-- The short name of a switch. -/
def short? : Switch → Option String
  | help => some "-h"
  | verbose => some "-v"
  | quiet => some "-q"
  | output => some "-o"
  | _ => none

/-- The long name of a switch. -/
def long : Switch → String
  | help => "--help"
  | version => "--version"
  | verbose => "--verbose"
  | quiet => "--quiet"
  | logFile => "--log-file"
  | maxSteps => "--max-steps"
  | trace => "--trace"
  | serial => "--serial"
  | baud => "--baud"
  | noExtended => "--no-extended"
  | output => "--output"
  | listing => "--listing"
  | source => "--source"

/-- All names of a switch. -/
def names (s : Switch) : List String := s.short?.toList ++ [s.long]

/-- What follows the switch. -/
def form : Switch → ValueForm
  | logFile | serial | output => .text
  | maxSteps | baud => .number
  | _ => .none

/-- The name of the value of a switch. -/
def valueName : Switch → String
  | logFile => "LOG_FILE"
  | maxSteps => "MAX_STEPS"
  | serial => "PORT"
  | baud => "BAUD"
  | output => "OUTPUT"
  | _ => ""

/-- What the switch is for. -/
def purpose : Switch → String
  | help => "show this help message and exit"
  | version => "show program's version number and exit"
  | verbose => "More log output (-vv for debug)"
  | quiet => "Errors only"
  | logFile => "Also write a full debug log here"
  | maxSteps => "Instruction budget (default: 10000)"
  | trace => "Print an instruction trace to stderr when done"
  | serial => "Do program I/O over a serial port or port URL"
  | baud => "Serial baud rate"
  | noExtended => "Reject the extended instructions (EXT, INA, OTA)"
  | output => "Output file (.bin image, .txt number list, or .lst listing)"
  | listing => "Print listing to stdout"
  | source => "Emit plain re-assemblable source instead of a listing"

end Switch

/-! ## 2. Verbs -/

/-- What is to be done. -/
inductive Verb where
  | asm
  | nums
  | run
  | runAsm
  | runNums
  | dump
  | disasm
  | test
  deriving DecidableEq, Repr

namespace Verb

/-- All verbs. -/
def all : List Verb := [asm, nums, run, runAsm, runNums, dump, disasm, test]

/-- The word for a verb. -/
def word : Verb → String
  | asm => "asm"
  | nums => "nums"
  | run => "run"
  | runAsm => "run-asm"
  | runNums => "run-nums"
  | dump => "dump"
  | disasm => "disasm"
  | test => "test"

/-- The verb of that word. -/
def ofWord? (w : List Char) : Option Verb := all.find? fun v => v.word.toList == w

/-- What the verb does. -/
def purpose : Verb → String
  | asm => "Assemble LMC source"
  | nums => "Build an image from a number list"
  | run => "Run a binary image"
  | runAsm => "Assemble and run LMC source"
  | runNums => "Build from a number list and run"
  | dump => "Show an image as a 10x10 table"
  | disasm => "Disassemble an image"
  | test => "Run an image against CSV test cases"

/-- The switches that every verb takes. -/
def common : List Switch := [.help, .verbose, .quiet, .logFile]

/-- The switches of a verb that runs a program. -/
def running : List Switch := [.maxSteps, .trace, .serial, .baud]

/-- The switches of a verb. -/
def switches : Verb → List Switch
  | asm => common ++ [.noExtended, .output, .listing]
  | nums => common ++ [.output]
  | run => common ++ running
  | runAsm => common ++ running ++ [.noExtended]
  | runNums => common ++ running
  | dump => common
  | disasm => common ++ [.source]
  | test => common

/-- The switches that a verb cannot do without. -/
def required : Verb → List Switch
  | nums => [.output]
  | _ => []

/-- The names of the operands of a verb. -/
def operands : Verb → List String
  | test => ["input", "cases"]
  | _ => ["input"]

end Verb

/-- The switches before a verb. -/
def mainSwitches : List Switch := [.help, .version]

/-! ## 3. Usage -/

/-- The name of the program. -/
def programName : String := "lmckit"

/-- The version of the program. -/
def programVersion : String := "0.2.0"

/-- A switch as usage shows it. -/
def Switch.usage (required : Bool) (s : Switch) : String :=
  let name := s.short?.getD s.long
  let shown := if s.form = .none then name else name ++ " " ++ s.valueName
  if required then shown else "[" ++ shown ++ "]"

/-- How to write a command line with a verb. -/
def Verb.usage (v : Verb) : String :=
  "usage: " ++ String.intercalate " "
    ([programName, v.word] ++ v.switches.map (fun s => s.usage (v.required.contains s)) ++
      v.operands)

/-- How to write a command line. -/
def mainUsage : String :=
  "usage: " ++ String.intercalate " "
    ([programName] ++ mainSwitches.map (Switch.usage false) ++ ["command", "..."])

/-- A line of help. -/
def helpRow (name purpose : String) : String :=
  String.ofList (' ' :: ' ' :: Text.leftAligned 28 name.toList) ++ purpose

/-- The help for a switch. -/
def Switch.helpText (s : Switch) : String :=
  let value := if s.form = .none then "" else " " ++ s.valueName
  helpRow (String.intercalate ", " (s.names.map (· ++ value))) s.purpose

/-- The help for a verb. -/
def Verb.helpText (v : Verb) : String :=
  String.intercalate "\n"
    ([v.usage, "", v.purpose, "", "options:"] ++ v.switches.map Switch.helpText) ++ "\n"

/-- The help for the whole program. -/
def mainHelpText : String :=
  String.intercalate "\n"
    ([mainUsage, "", "Little Minion Computer toolkit", "", "options:"] ++
      mainSwitches.map Switch.helpText ++ ["", "commands:"] ++
      Verb.all.map fun v => helpRow v.word v.purpose) ++ "\n"

end MinionComputer
