import MinionComputer.Accumulator
import MinionComputer.Cell
import MinionComputer.Command.Execution
import MinionComputer.Command.Line
import MinionComputer.Command.Program
import MinionComputer.Command.Settings
import MinionComputer.Command.Task
import MinionComputer.Command.Verb
import MinionComputer.Device.Basic
import MinionComputer.Device.Console
import MinionComputer.Device.Handler
import MinionComputer.Device.LoopPort
import MinionComputer.Device.Port
import MinionComputer.Device.Scripted
import MinionComputer.Device.SerialLine
import MinionComputer.Disassembly
import MinionComputer.Files.Basic
import MinionComputer.Files.Path
import MinionComputer.Image
import MinionComputer.Instruction.Basic
import MinionComputer.Instruction.Mnemonic
import MinionComputer.Journal
import MinionComputer.Machine.Basic
import MinionComputer.Machine.Registers
import MinionComputer.Machine.Run
import MinionComputer.Machine.Step
import MinionComputer.Main
import MinionComputer.Memory.Argument
import MinionComputer.Memory.Bank
import MinionComputer.Memory.Basic
import MinionComputer.Memory.Table
import MinionComputer.Note
import MinionComputer.NumberList
import MinionComputer.Proofs.Cell
import MinionComputer.Proofs.Device.Recorded
import MinionComputer.Proofs.Device.Scripted
import MinionComputer.Proofs.Disassembly
import MinionComputer.Proofs.Image.Bits
import MinionComputer.Proofs.Image.Fields
import MinionComputer.Proofs.Image.RoundTrip
import MinionComputer.Proofs.Instruction
import MinionComputer.Proofs.Machine.Checked
import MinionComputer.Proofs.Machine.Numeric
import MinionComputer.Proofs.Machine.Recorded
import MinionComputer.Proofs.Machine.Refinement
import MinionComputer.Proofs.Machine.Run
import MinionComputer.Proofs.Machine.Safety
import MinionComputer.Proofs.Machine.Slicing
import MinionComputer.Proofs.Machine.Sound
import MinionComputer.Proofs.Machine.Step
import MinionComputer.Proofs.Memory
import MinionComputer.Proofs.Source.Assembly
import MinionComputer.Proofs.Source.FirstPass
import MinionComputer.Proofs.Source.Meaning
import MinionComputer.Proofs.Source.Problems
import MinionComputer.Proofs.Source.SecondPass
import MinionComputer.Proofs.Source.Statement
import MinionComputer.Proofs.Source.Writing
import MinionComputer.Proofs.Text.Decimal
import MinionComputer.Proofs.Text.Numbered
import MinionComputer.Proofs.Text.Pieces
import MinionComputer.Proofs.Text.SignedNumeral
import MinionComputer.Proofs.Text.Trimming
import MinionComputer.Proofs.Trial.Pass
import MinionComputer.Proofs.Trial.Shelf
import MinionComputer.Source.Assembly
import MinionComputer.Source.Problem
import MinionComputer.Source.Statement
import MinionComputer.Text.Blank
import MinionComputer.Text.Capital
import MinionComputer.Text.Digit
import MinionComputer.Text.Numeral
import MinionComputer.Text.Piece
import MinionComputer.Text.Printable
import MinionComputer.Text.Quoted
import MinionComputer.Text.Utf8
import MinionComputer.Trial.Case
import MinionComputer.Trial.Check
import MinionComputer.Proofs.Machine.Ending
import MinionComputer.Proofs.Machine.Mode
import MinionComputer.Proofs.Machine.Following
import MinionComputer.Proofs.Device.Agreement
import MinionComputer.Proofs.Command.Polling
import MinionComputer.Proofs.NumberList
import MinionComputer.Proofs.Trial.Reading
import MinionComputer.Proofs.Files
import MinionComputer.Proofs.Journal
import MinionComputer.Proofs.Readers
import MinionComputer.Proofs.Device.Faults
import MinionComputer.Proofs.Trial.Trouble
import MinionComputer.Proofs.Command.Routes
import MinionComputer.Proofs.Machine.Breakpoints
import MinionComputer.Proofs.Machine.Halting
import MinionComputer.Proofs.Machine.Tracing
import MinionComputer.Proofs.Command.Waiting
import MinionComputer.Proofs.Command.Execution
import MinionComputer.Proofs.Command.Budget
import MinionComputer.Proofs.Trial.Isolation
import MinionComputer.Proofs.Command.Cases
import MinionComputer.Proofs.Source.Grammar
import MinionComputer.Proofs.Trial.Rows
import MinionComputer.Proofs.Memory.Store
import MinionComputer.Proofs.Trial.Diagnosis
import MinionComputer.Proofs.Source.Layout
import MinionComputer.Proofs.Source.Renaming
import MinionComputer.Proofs.Source.Rearrangement
import MinionComputer.Proofs.Source.Collection
import MinionComputer.Proofs.Source.Reuse
import MinionComputer.Proofs.Machine.Executed
import MinionComputer.Proofs.Machine.Arithmetic
import MinionComputer.Proofs.Device.ByteQueue
import MinionComputer.Proofs.Device.Arrivals
import MinionComputer.Proofs.Device.Loopback
import MinionComputer.Proofs.Trial.Writing
import MinionComputer.Proofs.Source.DataWords
import MinionComputer.Proofs.Machine.Restart
import MinionComputer.Proofs.Machine.Chronicle
import MinionComputer.Proofs.Device.Requests
import MinionComputer.Proofs.Source.Comment
