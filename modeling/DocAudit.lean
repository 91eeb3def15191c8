import DocAudit.Text.Basic
import DocAudit.Text.Marks
import DocAudit.Text.WordChar
import DocAudit.Text.Fold
import DocAudit.Record
import DocAudit.Skeleton.Stub
import DocAudit.Skeleton.Basic
import DocAudit.Declaration.Token
import DocAudit.Declaration.Basic
import DocAudit.Declaration.Spelling
import DocAudit.Declaration.Scan
import DocAudit.Resolution
import DocAudit.Comment.Basic
import DocAudit.Comment.Locate
import DocAudit.Comment.Body
import DocAudit.Comment.Reference
import DocAudit.Comment.Wrap
import DocAudit.Comment.Block
import DocAudit.Comment.Draft
import DocAudit.Comment.Doxygen
import DocAudit.Comment.Edt
import DocAudit.Comment.Template
import DocAudit.Audit.Binding
import DocAudit.Audit.Finding
import DocAudit.Audit.IgnoreList
import DocAudit.Audit.Report
import DocAudit.Layout
import DocAudit.Output.Colour
import DocAudit.Output.Notice
import DocAudit.Output.Json
import DocAudit.Output.Summary
import DocAudit.Path
import DocAudit.Glob.Pattern
import DocAudit.Glob.Match
import DocAudit.Glob.Test
import DocAudit.Glob.Expression
import DocAudit.Toml.Moment
import DocAudit.Toml.Scalar
import DocAudit.Toml.Node
import DocAudit.Toml.Document
import DocAudit.Error
import DocAudit.Config.Basic
import DocAudit.Config.Decode
import DocAudit.Files.Disk
import DocAudit.Files.Tree
import DocAudit.Files.Selection
import DocAudit.Config.Load
import DocAudit.CommandLine.Flag
import DocAudit.CommandLine.Help
import DocAudit.CommandLine.Parse
import DocAudit.CommandLine.Invocation
import DocAudit.Command.Check
import DocAudit.Command.Run
import DocAudit.Main
import DocAudit.Proofs.Text.Name
import DocAudit.Proofs.Text.Split
import DocAudit.Proofs.Text.Lines
import DocAudit.Proofs.Text.Distinct
import DocAudit.Proofs.Text.Trim
import DocAudit.Proofs.Text.Infix
import DocAudit.Proofs.Text.Words
import DocAudit.Proofs.Text.Marks
import DocAudit.Proofs.Text.Case
import DocAudit.Proofs.Declaration.Seam
import DocAudit.Proofs.Declaration.Lexeme
import DocAudit.Proofs.Declaration.Lexer
import DocAudit.Proofs.Declaration.Positions
import DocAudit.Proofs.Declaration.Head
import DocAudit.Proofs.Declaration.Moved
import DocAudit.Proofs.Declaration.Spelling
import DocAudit.Proofs.Declaration.Brackets
import DocAudit.Proofs.Declaration.Param
import DocAudit.Proofs.Declaration.Grammar
import DocAudit.Proofs.Declaration.Canonical
import DocAudit.Proofs.Skeleton.Stub
import DocAudit.Proofs.Skeleton.Positions
import DocAudit.Proofs.Skeleton.Block
import DocAudit.Proofs.Skeleton.Bodies
import DocAudit.Proofs.Resolution.Alias
import DocAudit.Proofs.Resolution.Settling
import DocAudit.Proofs.Resolution.Lines
import DocAudit.Proofs.Resolution.Insertion
import DocAudit.Proofs.Resolution.History
import DocAudit.Proofs.Resolution.Concatenation
import DocAudit.Proofs.Comment.Draft
import DocAudit.Proofs.Comment.Locate
import DocAudit.Proofs.Comment.Body
import DocAudit.Proofs.Comment.Wrap
import DocAudit.Proofs.Comment.Block
import DocAudit.Proofs.Comment.Width
import DocAudit.Proofs.Comment.Breaks
import DocAudit.Proofs.Comment.Render
import DocAudit.Proofs.Comment.Reading
import DocAudit.Proofs.Comment.TextLines
import DocAudit.Proofs.Comment.Doxygen
import DocAudit.Proofs.Comment.DoxygenRecovery
import DocAudit.Proofs.Comment.PlainBlock
import DocAudit.Proofs.Comment.Edt
import DocAudit.Proofs.Comment.EdtRecovery
import DocAudit.Proofs.Comment.Rules
import DocAudit.Proofs.Comment.Entries
import DocAudit.Proofs.Comment.Reference
import DocAudit.Proofs.Comment.Template
import DocAudit.Proofs.Comment.Moved
import DocAudit.Proofs.Audit.Finding
import DocAudit.Proofs.Audit.Binding
import DocAudit.Proofs.Audit.Template
import DocAudit.Proofs.Audit.Concatenation
import DocAudit.Proofs.Audit.Agreement
import DocAudit.Proofs.Audit.Verdict
import DocAudit.Proofs.Audit.Sharing
import DocAudit.Proofs.Comment.Located
import DocAudit.Proofs.Audit.Issues
import DocAudit.Proofs.Command.Check
import DocAudit.Proofs.Files.Place
import DocAudit.Proofs.Path.Order
import DocAudit.Proofs.Files.Selection
import DocAudit.Proofs.Layout.Columns
import DocAudit.Proofs.Layout.ReadBack
import DocAudit.Proofs.Output.Colour
