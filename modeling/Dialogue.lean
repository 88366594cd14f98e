import Dialogue.Command.Basic
import Dialogue.Command.Handler
import Dialogue.Console.Compile
import Dialogue.Console.Folder
import Dialogue.Console.Play
import Dialogue.Console.Task
import Dialogue.Decimal.Read
import Dialogue.Decimal.Shortest
import Dialogue.Expr.Basic
import Dialogue.Expr.Parse
import Dialogue.Interpolation
import Dialogue.Ledger.Basic
import Dialogue.Ledger.Tracker
import Dialogue.Main
import Dialogue.Markup.Basic
import Dialogue.Markup.Builder
import Dialogue.Markup.Parse
import Dialogue.Markup.Tag
import Dialogue.Path
import Dialogue.Player
import Dialogue.Program.Basic
import Dialogue.Program.Lower
import Dialogue.Program.Ron
import Dialogue.Program.Validate
import Dialogue.Proofs.Command.Consistency
import Dialogue.Proofs.Command.Effect
import Dialogue.Proofs.Except
import Dialogue.Proofs.Expr.Grammar
import Dialogue.Proofs.Expr.Literals
import Dialogue.Proofs.Expr.Operands
import Dialogue.Proofs.Expr.Operators
import Dialogue.Proofs.Expr.RoundTrip
import Dialogue.Proofs.Interpolation.Alignment
import Dialogue.Proofs.Interpolation.Cells
import Dialogue.Proofs.Interpolation.Rebuild
import Dialogue.Proofs.Ledger.History
import Dialogue.Proofs.Markup.Content
import Dialogue.Proofs.Markup.Demotion
import Dialogue.Proofs.Markup.Nesting
import Dialogue.Proofs.Markup.Outline
import Dialogue.Proofs.Markup.Pieces
import Dialogue.Proofs.Markup.Representation
import Dialogue.Proofs.Markup.Tiling
import Dialogue.Proofs.Markup.Tree
import Dialogue.Proofs.Program.Decode
import Dialogue.Proofs.Program.Findings
import Dialogue.Proofs.Program.Identifiers
import Dialogue.Proofs.Program.Image
import Dialogue.Proofs.Program.Labels
import Dialogue.Proofs.Program.LastLines
import Dialogue.Proofs.Program.Links
import Dialogue.Proofs.Program.Marks
import Dialogue.Proofs.Program.Mentions
import Dialogue.Proofs.Program.Stored
import Dialogue.Proofs.Program.Uniqueness
import Dialogue.Proofs.Ron.Bracket
import Dialogue.Proofs.Ron.ReadBack
import Dialogue.Proofs.Ron.Scalar
import Dialogue.Proofs.Runner.Activation
import Dialogue.Proofs.Runner.Coherence
import Dialogue.Proofs.Runner.Detour
import Dialogue.Proofs.Runner.Labels
import Dialogue.Proofs.Runner.Machine
import Dialogue.Proofs.Runner.Progress
import Dialogue.Proofs.Runner.Refinement
import Dialogue.Proofs.Runner.Session
import Dialogue.Proofs.Runner.Sharing
import Dialogue.Proofs.Runner.Termination
import Dialogue.Proofs.Runner.Trackers
import Dialogue.Proofs.Runner.Transition
import Dialogue.Proofs.Runner.Visits
import Dialogue.Proofs.Script.BlankLines
import Dialogue.Proofs.Script.Definitions
import Dialogue.Proofs.Script.Grammar
import Dialogue.Proofs.Script.Layout
import Dialogue.Proofs.Script.Lexing
import Dialogue.Proofs.Script.Margins
import Dialogue.Proofs.Script.Reading
import Dialogue.Proofs.Script.Render
import Dialogue.Proofs.Script.RoundTrip
import Dialogue.Proofs.Script.Rows
import Dialogue.Proofs.Script.Soundness
import Dialogue.Proofs.Script.Steps
import Dialogue.Proofs.Script.Transition
import Dialogue.Proofs.Script.Unlined
import Dialogue.Proofs.Script.Written
import Dialogue.Proofs.Store.Depth
import Dialogue.Proofs.Store.Evaluation
import Dialogue.Proofs.Text.Cursor
import Dialogue.Proofs.Text.Digits
import Dialogue.Proofs.Text.Literal
import Dialogue.Proofs.Text.Trim
import Dialogue.Ron.Basic
import Dialogue.Ron.Number
import Dialogue.Ron.Read
import Dialogue.Runner.Basic
import Dialogue.Runner.Result
import Dialogue.Runner.Stage
import Dialogue.Runner.Step
import Dialogue.Script.Block
import Dialogue.Script.Document
import Dialogue.Script.Error
import Dialogue.Script.Phrase
import Dialogue.Script.Statement
import Dialogue.Script.Token
import Dialogue.Settings
import Dialogue.Store.Basic
import Dialogue.Store.Evaluate
import Dialogue.Store.Functions
import Dialogue.Table
import Dialogue.Terminal.Stretch
import Dialogue.Terminal.Style
import Dialogue.Terminal.Theme
import Dialogue.Text.Blank
import Dialogue.Text.Bracket
import Dialogue.Text.Cased
import Dialogue.Text.Cursor
import Dialogue.Text.Hex
import Dialogue.Text.Hidden
import Dialogue.Text.Identifier
import Dialogue.Text.Lower
import Dialogue.Text.Name
import Dialogue.Text.Ranges
import Dialogue.Text.Utf8
import Dialogue.Text.Word
import Dialogue.Toml.Basic
import Dialogue.Toml.Read
import Dialogue.Toml.Scalar
import Dialogue.Value.Basic
import Dialogue.Value.Number
import Dialogue.Proofs.Markup.Layout
import Dialogue.Proofs.Markup.Slicing
import Dialogue.Proofs.Command.Quotes
import Dialogue.Proofs.Command.Assignment
import Dialogue.Proofs.Runner.Blocks
import Dialogue.Proofs.Runner.Choice
import Dialogue.Proofs.Console.Play
import Dialogue.Proofs.Command.Words
import Dialogue.Proofs.Value.Equality
import Dialogue.Proofs.Store.Following
import Dialogue.Proofs.Store.Nesting
import Dialogue.Proofs.Terminal.Painting
import Dialogue.Proofs.Terminal.Rendering
import Dialogue.Proofs.Runner.Levels
import Dialogue.Proofs.Markup.Merging
import Dialogue.Proofs.Script.Agreement
import Dialogue.Proofs.Interpolation.Partition
