import SourceNotes.Main
import SourceNotes.Proofs.Charset.Split
import SourceNotes.Proofs.Reader.Outlook
import SourceNotes.Proofs.Reader.Delivers
import SourceNotes.Proofs.Reader.Whole
import SourceNotes.Proofs.Comment.Winner
import SourceNotes.Proofs.Comment.Segmentation
import SourceNotes.Proofs.Comment.Place
import SourceNotes.Proofs.Comment.Decides
import SourceNotes.Proofs.Comment.Scan
import SourceNotes.Proofs.Comment.Lines
import SourceNotes.Proofs.Comment.Lookahead
import SourceNotes.Proofs.Text.Pieces
import SourceNotes.Proofs.Note.Rows
import SourceNotes.Proofs.Comment.LineEnds
import SourceNotes.Proofs.Note.LineEnds
import SourceNotes.Proofs.Comment.Append
import SourceNotes.Proofs.Comment.Horizon
import SourceNotes.Proofs.Comment.Alone
import SourceNotes.Proofs.Charset.Encoding
import SourceNotes.Proofs.Reader.Marked
import SourceNotes.Proofs.Reader.Charsets
import SourceNotes.Proofs.Comment.Calls
import SourceNotes.Proofs.Note.Calls
import SourceNotes.Proofs.SourceFile.Detect
import SourceNotes.Proofs.FileTree.Places
import SourceNotes.Proofs.Ignore.Loaded
import SourceNotes.Proofs.Walk.Visits
import SourceNotes.Proofs.Walk.Selection
import SourceNotes.Proofs.Walk.Blocks
import SourceNotes.Proofs.Walk.Frame
import SourceNotes.Proofs.Ignore.Verdicts
import SourceNotes.Proofs.Walk.Filters
import SourceNotes.Proofs.Note.Expression
import SourceNotes.Proofs.Note.Grammar
import SourceNotes.Proofs.Comment.OneLine
import SourceNotes.Proofs.Report.Escape
import SourceNotes.Proofs.Report.Lines
import SourceNotes.Proofs.Walk.OneLine
import SourceNotes.Proofs.Command.Output
import SourceNotes.Proofs.Text.First
import SourceNotes.Proofs.Reader.Mute
import SourceNotes.Proofs.Comment.Steps
import SourceNotes.Proofs.Comment.Blocks
import SourceNotes.Proofs.Comment.Strings
import SourceNotes.Proofs.Comment.LineOrString
import SourceNotes.Proofs.Comment.Order
import SourceNotes.Proofs.Note.Candidates
import SourceNotes.Proofs.Note.Kinds
import SourceNotes.Proofs.Note.Fields
import SourceNotes.Proofs.Reader.Alike
import SourceNotes.Proofs.Reader.Utf8Mark
import SourceNotes.Proofs.Reader.Consumed
import SourceNotes.Proofs.Comment.Asked
import SourceNotes.Proofs.Comment.Progress
import SourceNotes.Proofs.Comment.FaultLine
import SourceNotes.Proofs.Report.JsonReader
import SourceNotes.Proofs.Report.ReadBack
import SourceNotes.Proofs.Report.Literal
import SourceNotes.Proofs.Ignore.Alignment
import SourceNotes.Proofs.Ignore.Writing
import SourceNotes.Proofs.Command.ProjectFile
import SourceNotes.Proofs.Reader.Buffered
import SourceNotes.Proofs.Command.ExitCode
