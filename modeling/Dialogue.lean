import Dialogue.Text.Basic
import Dialogue.Text.Blank
import Dialogue.Text.Split
import Dialogue.Text.Lines
import Dialogue.Text.Numeral
import Dialogue.Text.Utf8
import Dialogue.Text.Combining
import Dialogue.Text.Unprintable
import Dialogue.Text.Quoted
import Dialogue.Conversation
import Dialogue.Notice
import Dialogue.File.Basic
import Dialogue.Asset
import Dialogue.Csv.Basic
import Dialogue.Csv.Reader
import Dialogue.Csv.Writer
import Dialogue.Variables.Basic
import Dialogue.Variables.Error
import Dialogue.Variables.Load
import Dialogue.Variables.Dialect
import Dialogue.Variables.Columns
import Dialogue.Script.Error
import Dialogue.Script.Token
import Dialogue.Script.Source
import Dialogue.Script.Printer
import Dialogue.Script.Compile
import Dialogue.Markup.Segment
import Dialogue.Markup.Piece
import Dialogue.Markup.Printer
import Dialogue.Markup.Stretch
import Dialogue.Cache
import Dialogue.Session.Error
import Dialogue.Session.Stage
import Dialogue.Session.Function
import Dialogue.Session.Event
import Dialogue.Session.Display
import Dialogue.Session.Basic
import Dialogue.Session.Action
import Dialogue.Player.Failure
import Dialogue.Player.Arguments
import Dialogue.Player.Basic
import Dialogue.Main
import Dialogue.Proofs.Cutting
import Dialogue.Proofs.Layout
import Dialogue.Proofs.TextLine
import Dialogue.Proofs.Blocks
import Dialogue.Proofs.Acceptance
import Dialogue.Proofs.Interpretation
import Dialogue.Proofs.Moves
import Dialogue.Proofs.Consistency
import Dialogue.Proofs.Course
import Dialogue.Proofs.Listening
import Dialogue.Proofs.Wording
import Dialogue.Proofs.Refusal
import Dialogue.Proofs.WellFormed
import Dialogue.Proofs.Alike
import Dialogue.Proofs.Substitution
import Dialogue.Proofs.Caching
import Dialogue.Proofs.Futility
import Dialogue.Proofs.FaultyLine
import Dialogue.Proofs.Joining
import Dialogue.Proofs.Reach
import Dialogue.Proofs.Printing
import Dialogue.Proofs.Transcript
import Dialogue.Proofs.Arrival
import Dialogue.Proofs.Phases
import Dialogue.Proofs.Calls
import Dialogue.Proofs.Scenes
import Dialogue.Proofs.Hosts
import Dialogue.Proofs.Restart
import Dialogue.Proofs.Snapshot
import Dialogue.Proofs.Ledger
import Dialogue.Proofs.Relayout
import Dialogue.Proofs.Phrasing
import Dialogue.Proofs.Offsets
import Dialogue.Proofs.Tiling
import Dialogue.Proofs.Insertion
import Dialogue.Proofs.Playthrough
import Dialogue.Proofs.Choosing
import Dialogue.Proofs.Loading
import Dialogue.Proofs.Reading
import Dialogue.Proofs.Tables
import Dialogue.Proofs.Input
