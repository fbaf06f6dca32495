import ArithTokens.Chain.Program
import ArithTokens.Files.Tree
import ArithTokens.Lexer.Session
import ArithTokens.Main
import ArithTokens.Proofs.Scan.Lexeme
import ArithTokens.Proofs.Text.Stretch
import ArithTokens.Proofs.Scan.Segmentation
import ArithTokens.Proofs.Place
import ArithTokens.Proofs.Scan.Append
import ArithTokens.Proofs.Overflow
import ArithTokens.Proofs.Scan.Spelling
import ArithTokens.Proofs.Cursor
import ArithTokens.Proofs.Lexer.Mark
import ArithTokens.Proofs.Lexer.Pool
import ArithTokens.Proofs.Chain.Elements
import ArithTokens.Proofs.Chain.Program
import ArithTokens.Proofs.Files.Growth
import ArithTokens.Proofs.Command.Init
import ArithTokens.Proofs.Text.Encode
import ArithTokens.Proofs.Json
import ArithTokens.Proofs.Json.Grammar
import ArithTokens.Proofs.Json.Written
import ArithTokens.Proofs.Transcript
import ArithTokens.Proofs.Rendering
import ArithTokens.Proofs.Command.Output
import ArithTokens.Proofs.Text.Decode
import ArithTokens.Proofs.Feed
import ArithTokens.Proofs.Scan.Lines
import ArithTokens.Proofs.Command.Repl
import ArithTokens.Proofs.Scan.Policies
import ArithTokens.Proofs.Rendering.Lines
import ArithTokens.Proofs.Rendering.Records
import ArithTokens.Proofs.CommandLine.Parse
import ArithTokens.Proofs.CommandLine.Line
import ArithTokens.Proofs.Files.Content
import ArithTokens.Proofs.CommandLine.Settings
import ArithTokens.Proofs.Scan.Numbers
import ArithTokens.Proofs.Command.Lines
import ArithTokens.Proofs.Lexer.Position
import ArithTokens.Proofs.CommandLine.Quiet
import ArithTokens.Proofs.CommandLine.QuietLine
import ArithTokens.Proofs.CommandLine.Logging
import ArithTokens.Proofs.Span
import ArithTokens.Proofs.Scan.Cover
import ArithTokens.Proofs.Text.Forms
import ArithTokens.Proofs.Text.Lossy
import ArithTokens.Proofs.Command.Channels
import ArithTokens.Proofs.Command.Footprint
import ArithTokens.Proofs.Text.Boundary
import ArithTokens.Proofs.Span.Slice
import ArithTokens.Proofs.Chain.Equality
import ArithTokens.Proofs.Chain.Walks
import ArithTokens.Proofs.Config
import ArithTokens.Proofs.Span.Algebra
import ArithTokens.Proofs.Text.Split
import ArithTokens.Cursor.Bytes
import ArithTokens.Proofs.Cursor.Bytes
