import Semicolon.Text.Glyph
import Semicolon.Text.Letter
import Semicolon.Text.Ranges
import Semicolon.Text.Casing
import Semicolon.Text.Digit
import Semicolon.Text.Utf8
import Semicolon.Text.Printable
import Semicolon.Text.Quoted
import Semicolon.Line.Basic
import Semicolon.Line.State
import Semicolon.Line.Verdict
import Semicolon.Scan
import Semicolon.Source
import Semicolon.Number.Shortest
import Semicolon.Number.Calendar
import Semicolon.Yaml.Problem
import Semicolon.Yaml.Scalar
import Semicolon.Yaml.Value
import Semicolon.Yaml.SetOrder
import Semicolon.Yaml.Read
import Semicolon.Yaml.Token
import Semicolon.Yaml.Lexeme
import Semicolon.Yaml.Stream
import Semicolon.Yaml.Node
import Semicolon.Yaml.Load
import Semicolon.Yaml.Print
import Semicolon.Disk.Path
import Semicolon.Disk.Fault
import Semicolon.Disk.Basic
import Semicolon.Disk.Access
import Semicolon.Disk.Changes
import Semicolon.Log
import Semicolon.Replacement
import Semicolon.Lint
import Semicolon.Discovery
import Semicolon.Config
import Semicolon.Report
import Semicolon.Options
import Semicolon.Run
import Semicolon.Main
import Semicolon.Proofs.Text
import Semicolon.Proofs.Split
import Semicolon.Proofs.Verdict
import Semicolon.Proofs.Pass
import Semicolon.Proofs.Edit
import Semicolon.Proofs.Agreement
import Semicolon.Proofs.Independence
import Semicolon.Proofs.Criterion
import Semicolon.Proofs.Utf8
import Semicolon.Proofs.Source
import Semicolon.Proofs.Walk
import Semicolon.Proofs.Access
import Semicolon.Proofs.Replacement
import Semicolon.Proofs.Idempotence
import Semicolon.Proofs.Alike
import Semicolon.Proofs.Comment
import Semicolon.Proofs.Opening
import Semicolon.Proofs.Rewrite
import Semicolon.Proofs.Bytes
import Semicolon.Proofs.Preservation
import Semicolon.Proofs.SameFindings
import Semicolon.Proofs.Selection
import Semicolon.Proofs.Aftermath
import Semicolon.Proofs.Rerun
import Semicolon.Proofs.Composition
import Semicolon.Proofs.Indentation
import Semicolon.Proofs.Redundancy
import Semicolon.Proofs.Ending
import Semicolon.Proofs.Atomicity
import Semicolon.Proofs.Account
import Semicolon.Proofs.Footprint
import Semicolon.Proofs.Marks
import Semicolon.Proofs.Nesting
import Semicolon.Proofs.Yaml.Numbering
import Semicolon.Proofs.Yaml.Filling
import Semicolon.Proofs.OptionsFile
import Semicolon.Proofs.Pending
import Semicolon.Proofs.Leniency
import Semicolon.Proofs.Joined
import Semicolon.Proofs.Below
import Semicolon.Proofs.Yaml.Quotation
import Semicolon.Proofs.Yaml.Quoting
import Semicolon.Proofs.Yaml.Words
import Semicolon.Proofs.Yaml.Layout
import Semicolon.Proofs.Yaml.Numeral
import Semicolon.Proofs.Yaml.Outline
import Semicolon.Proofs.Report
import Semicolon.Proofs.StagedNames
import Semicolon.Proofs.LineEnds
