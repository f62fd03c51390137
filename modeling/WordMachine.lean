import WordMachine.Command.Arguments
import WordMachine.Command.Console
import WordMachine.Command.Execution
import WordMachine.Command.Invocation
import WordMachine.Command.Parameter
import WordMachine.Command.Reading
import WordMachine.Device.Cabinet
import WordMachine.Device.Droid
import WordMachine.Device.Error
import WordMachine.Device.Painter
import WordMachine.Device.Tile
import WordMachine.Fault
import WordMachine.File.Lines
import WordMachine.File.ReadError
import WordMachine.File.Tree
import WordMachine.FloorPlan
import WordMachine.Grid.Direction
import WordMachine.Grid.Position
import WordMachine.Grid.Rendering
import WordMachine.Input
import WordMachine.Instruction
import WordMachine.Log.Event
import WordMachine.Log.Filter
import WordMachine.Machine.Basic
import WordMachine.Machine.Report
import WordMachine.Main
import WordMachine.Memory
import WordMachine.NounVerb
import WordMachine.Pipeline.Basic
import WordMachine.Pipeline.Phases
import WordMachine.Program
import WordMachine.Proofs.Device.Survey
import WordMachine.Proofs.FloorPlan
import WordMachine.Proofs.Machine.History
import WordMachine.Proofs.Machine.Ideal
import WordMachine.Proofs.Machine.Refinement
import WordMachine.Proofs.Machine.Resumption
import WordMachine.Proofs.Machine.Run
import WordMachine.Proofs.Machine.Simulation
import WordMachine.Proofs.Pipeline.Feedback
import WordMachine.Proofs.Pipeline.Network
import WordMachine.Proofs.Pipeline.Relay
import WordMachine.Proofs.Session
import WordMachine.Session
import WordMachine.Text.Alphanumeric
import WordMachine.Text.Blank
import WordMachine.Text.Control
import WordMachine.Text.Printable
import WordMachine.Text.Quoted
import WordMachine.Text.Range
import WordMachine.Text.Token
import WordMachine.Word.Basic
import WordMachine.Word.Listing
import WordMachine.Word.Numeral
import WordMachine.Proofs.Device.Exploration
import WordMachine.Proofs.Device.Oxygen
import WordMachine.Proofs.Machine.Equality
import WordMachine.Proofs.Machine.Blocking
import WordMachine.Proofs.Device.ClosedLoop
import WordMachine.Proofs.Device.Painting
import WordMachine.Proofs.Machine.Failure
import WordMachine.Proofs.Pipeline.Composition
import WordMachine.Proofs.Device.Playing
import WordMachine.Proofs.InputContract
import WordMachine.Proofs.Machine.RunState
import WordMachine.Proofs.Pipeline.LastWord
import WordMachine.Proofs.Command.Console
import WordMachine.Proofs.Command.Interaction
import WordMachine.Proofs.Machine.Seam
import WordMachine.Proofs.Pipeline.Phases
import WordMachine.Proofs.NounVerb
import WordMachine.Proofs.Frontier
import WordMachine.Proofs.Instruction
import WordMachine.Proofs.Text.Token
import WordMachine.Proofs.Text.Quoted
import WordMachine.Proofs.Word.Numeral
import WordMachine.Proofs.Word.Listing
import WordMachine.Proofs.Program
import WordMachine.Proofs.File.Lines
import WordMachine.Proofs.Command.Reading
import WordMachine.Proofs.Command.Readback
import WordMachine.Proofs.Journal
import WordMachine.Proofs.Device.Intake
import WordMachine.Proofs.FlatMemory
import WordMachine.Proofs.Device.Strokes
import WordMachine.Proofs.Device.Drawing
import WordMachine.Proofs.Grid.Rendering
import WordMachine.Proofs.Rendering
import WordMachine.Proofs.Machine.Addressing
