/-
# Notes

Whatever happens beside the answer of an operation is told in notes: a level, the channel the
note belongs to, and a message.  Operations return their notes; who reads them is decided where
they are collected.

* `Level`: how urgent a note is, and its name;
* `Note`: one note.
-/
import MinionComputer.Text.Numeral

namespace MinionComputer

/-- How urgent a note is: the higher, the more so. -/
structure Level where
  rank : Int
  deriving DecidableEq, Repr

namespace Level

def debug : Level := ⟨10⟩
def info : Level := ⟨20⟩
def warning : Level := ⟨30⟩
def error : Level := ⟨40⟩
def critical : Level := ⟨50⟩

/-- The name of a level; one between the five known levels is named by its rank. -/
def name (l : Level) : String :=
  if l.rank = 0 then "NOTSET"
  else if l = debug then "DEBUG"
  else if l = info then "INFO"
  else if l = warning then "WARNING"
  else if l = error then "ERROR"
  else if l = critical then "CRITICAL"
  else "Level " ++ Text.integer l.rank

end Level

/-- One note. -/
structure Note where
  level : Level
  channel : String
  message : String
  deriving DecidableEq, Repr

end MinionComputer
