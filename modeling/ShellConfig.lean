import ShellConfig.OrderedMap
import ShellConfig.Source.Cursor
import ShellConfig.Text.Blank
import ShellConfig.Text.Identifier
import ShellConfig.Text.Quoted
import ShellConfig.Source.Pattern
import ShellConfig.Config.Serialize
import ShellConfig.Line.Operation
import ShellConfig.Line.Reference
import ShellConfig.File.Tree
import ShellConfig.Directives.Basic
import ShellConfig.Lexer.State
import ShellConfig.Lexer.Step
import ShellConfig.Lexer.Run
import ShellConfig.Interpreter
import ShellConfig.Json.Basic
import ShellConfig.Json.Token
import ShellConfig.Config.Json
import ShellConfig.CommandLine
import ShellConfig.Directives.Stock
import ShellConfig.Main
import ShellConfig.Proofs.Correspondence
import ShellConfig.Proofs.File.Siblings
import ShellConfig.Proofs.File.Identity
import ShellConfig.Proofs.Source.Positions
import ShellConfig.Proofs.Lexer.Steps
import ShellConfig.Proofs.Lexer.Ends
import ShellConfig.Proofs.Lexer.Reading
import ShellConfig.Proofs.Lexer.Following
import ShellConfig.Proofs.Lexer.Lines
import ShellConfig.Proofs.Lexer.Scan
import ShellConfig.Proofs.Lexer.Characters
import ShellConfig.Proofs.Lexer.LineBeginning
import ShellConfig.Proofs.Lexer.Faults
import ShellConfig.Proofs.Lexer.LineStarts
import ShellConfig.Proofs.Lexer.Locality
import ShellConfig.Proofs.Lexer.Cut
import ShellConfig.Proofs.Lexer.Coupling
import ShellConfig.Proofs.Lexer.Shape
import ShellConfig.Proofs.Interpreter.Composition
import ShellConfig.Proofs.Interpreter.Opening
import ShellConfig.Proofs.Interpreter.Growth
import ShellConfig.Proofs.Interpreter.CompletedLines
import ShellConfig.Proofs.Interpreter.Evaluator
import ShellConfig.Proofs.Interpreter.IncludeStack
import ShellConfig.Proofs.Interpreter.Locations
import ShellConfig.Proofs.Interpreter.Strictness
import ShellConfig.Proofs.Interpreter.Shape
import ShellConfig.Proofs.Interpreter.Coupling
import ShellConfig.Proofs.Interpreter.Loading
import ShellConfig.Proofs.Interpreter.Splicing
import ShellConfig.Proofs.Quoting.Words
import ShellConfig.Proofs.Quoting.Assignment
import ShellConfig.Proofs.Quoting.Escape
import ShellConfig.Proofs.Quoting.Directive
import ShellConfig.Proofs.Config.Contents
import ShellConfig.Proofs.Config.Writable
import ShellConfig.Proofs.Config.RoundTrip
import ShellConfig.Proofs.Config.OnlyWritable
import ShellConfig.Proofs.Config.Shape
import ShellConfig.Proofs.Json.RoundTrip
import ShellConfig.Proofs.Config.Json
import ShellConfig.Proofs.Lexer.Returns
import ShellConfig.Proofs.Lexer.LineEndings
import ShellConfig.Proofs.Interpreter.LineEndings
import ShellConfig.Proofs.Quoting.Script
import ShellConfig.Proofs.Interpreter.Including
import ShellConfig.Proofs.CommandLine
import ShellConfig.Proofs.File.Moving
import ShellConfig.Proofs.Lexer.Renaming
import ShellConfig.Proofs.Interpreter.Moving
import ShellConfig.Proofs.Config.Operations
import ShellConfig.Proofs.Lexer.Announcement
import ShellConfig.Proofs.Lexer.LineOperation
import ShellConfig.Proofs.Lexer.Places
import ShellConfig.Proofs.Interpreter.DirectiveLines
import ShellConfig.Proofs.Lexer.Comments
import ShellConfig.Proofs.Interpreter.Comments
import ShellConfig.Proofs.Quoting.References
import ShellConfig.Proofs.Config.History
import ShellConfig.Proofs.Config.SortedText
import ShellConfig.Proofs.Lexer.Progress
import ShellConfig.Proofs.Interpreter.Progress
import ShellConfig.Proofs.Lexer.Lengths
import ShellConfig.Proofs.Quoting.BareWords
import ShellConfig.Proofs.Source.Boundaries
import ShellConfig.Proofs.Source.Lossless
import ShellConfig.Proofs.Causes
import ShellConfig.Proofs.Interpreter.Causes
import ShellConfig.Proofs.Lexer.Order
