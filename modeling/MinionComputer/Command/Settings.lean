/-
# Settings

What the options of a command line come to.  An option that is not given, or is given as zero or
as nothing, leaves the usual value.

* `Options`: what was given;
* `Settings.ofOptions`: what holds.
-/
import MinionComputer.Note
import MinionComputer.Files.Path

namespace MinionComputer

/-- What the options of a command line say. -/
structure Options where
  verbosity : Option Int := none
  quiet : Bool := false
  logFile : Option (List Char) := none
  maxSteps : Option Int := none
  plainOnly : Bool := false
  tracing : Bool := false
  port : Option String := none
  baud : Option Int := none
  deriving DecidableEq, Repr

/-- What holds for the run of a command. -/
structure Settings where
  maxSteps : Int := 10000
  extended : Bool := true
  tracing : Bool := false
  port : Option String := none
  baud : Int := 9600
  console : Level := .warning
  logFile : Option (List Char) := none
  deriving DecidableEq, Repr

namespace Settings

/-- A number that was given, unless it is zero, or else the usual one. -/
def orUsual (usual : Int) (given : Option Int) : Int := (given.filter (· != 0)).getD usual

/-- How urgent a note must be for the console. -/
def consoleLevel (o : Options) : Level :=
  let verbosity := o.verbosity.getD 0
  if o.quiet then .error
  else if 2 ≤ verbosity then .debug
  else if verbosity = 1 then .info
  else .warning

/-- What the options come to. -/
def ofOptions (o : Options) : Settings where
  maxSteps := orUsual 10000 o.maxSteps
  extended := !o.plainOnly
  tracing := o.tracing
  port := o.port
  baud := orUsual 9600 o.baud
  console := consoleLevel o
  logFile := (o.logFile.filter (!·.isEmpty)).map Path.plain

end Settings
end MinionComputer
