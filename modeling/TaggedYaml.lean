import TaggedYaml.Codec
import TaggedYaml.Decimal.Shortest
import TaggedYaml.Decimal.Text
import TaggedYaml.Error
import TaggedYaml.Event.Basic
import TaggedYaml.Event.Read
import TaggedYaml.Fault
import TaggedYaml.Json.Data
import TaggedYaml.Json.Fault
import TaggedYaml.Json.Members
import TaggedYaml.Json.Pass
import TaggedYaml.Json.Reader
import TaggedYaml.Json.Record
import TaggedYaml.Json.Shown
import TaggedYaml.Json.Text
import TaggedYaml.Pattern.Basic
import TaggedYaml.Pattern.Brackets
import TaggedYaml.Pattern.Bytes
import TaggedYaml.Pattern.CharSet
import TaggedYaml.Pattern.Escape
import TaggedYaml.Pattern.Match
import TaggedYaml.Pattern.Read
import TaggedYaml.Pattern.Shape
import TaggedYaml.Pattern.Size
import TaggedYaml.Pattern.Template
import TaggedYaml.Proofs.Event.Anchors
import TaggedYaml.Proofs.Event.Derives
import TaggedYaml.Proofs.Event.Grammar
import TaggedYaml.Proofs.Event.Numbers
import TaggedYaml.Proofs.Except
import TaggedYaml.Proofs.Json.RoundTrip
import TaggedYaml.Proofs.Json.Words
import TaggedYaml.Proofs.Scan.Block
import TaggedYaml.Proofs.Scan.Columns
import TaggedYaml.Proofs.Scan.Flow
import TaggedYaml.Proofs.Scan.Key
import TaggedYaml.Proofs.Scan.Label
import TaggedYaml.Proofs.Scan.Literal
import TaggedYaml.Proofs.Scan.Names
import TaggedYaml.Proofs.Scan.Plain
import TaggedYaml.Proofs.Scan.Progress
import TaggedYaml.Proofs.Scan.Quoted
import TaggedYaml.Proofs.Scan.Ready
import TaggedYaml.Proofs.Scan.Round
import TaggedYaml.Proofs.Scan.Space
import TaggedYaml.Proofs.Shape.Basic
import TaggedYaml.Proofs.Shape.Build
import TaggedYaml.Proofs.Shape.Events
import TaggedYaml.Proofs.Shape.Face
import TaggedYaml.Proofs.Shape.OfValue
import TaggedYaml.Proofs.Shape.Reading
import TaggedYaml.Proofs.Shape.Reread
import TaggedYaml.Proofs.Shape.Said
import TaggedYaml.Proofs.Shape.Scanned
import TaggedYaml.Proofs.Shape.Value
import TaggedYaml.Proofs.Shape.Written
import TaggedYaml.Proofs.Tree.Aliases
import TaggedYaml.Proofs.Tree.Bindings
import TaggedYaml.Proofs.Tree.Flattens
import TaggedYaml.Proofs.Tree.Legible
import TaggedYaml.Proofs.Tree.Lossless
import TaggedYaml.Proofs.Tree.Makes
import TaggedYaml.Proofs.Tree.Order
import TaggedYaml.Proofs.Tree.Pieces
import TaggedYaml.Proofs.Tree.Places
import TaggedYaml.Proofs.Tree.RoundTrip
import TaggedYaml.Proofs.Tree.Steps
import TaggedYaml.Proofs.Tree.Tags
import TaggedYaml.Proofs.Tree.Ties
import TaggedYaml.Proofs.Tree.Total
import TaggedYaml.Proofs.Tree.Walk
import TaggedYaml.Scalar.Meaning
import TaggedYaml.Scalar.Write
import TaggedYaml.Settings.Basic
import TaggedYaml.Settings.File
import TaggedYaml.Text.Class
import TaggedYaml.Text.Cursor
import TaggedYaml.Text.Utf8
import TaggedYaml.Token.Basic
import TaggedYaml.Token.Block
import TaggedYaml.Token.Directive
import TaggedYaml.Token.Gap
import TaggedYaml.Token.Indicator
import TaggedYaml.Token.Lexer
import TaggedYaml.Token.Plain
import TaggedYaml.Token.Property
import TaggedYaml.Token.Quoted
import TaggedYaml.Token.Scan
import TaggedYaml.Token.Space
import TaggedYaml.Tree.Basic
import TaggedYaml.Tree.Build
import TaggedYaml.Tree.Flatten
import TaggedYaml.Tree.OfData
import TaggedYaml.Tree.Write
import TaggedYaml.Unicode.AgeTable
import TaggedYaml.Unicode.Break
import TaggedYaml.Unicode.CategoryTable
import TaggedYaml.Unicode.Class
import TaggedYaml.Unicode.CodeSet
import TaggedYaml.Unicode.Fold
import TaggedYaml.Unicode.Listed
import TaggedYaml.Unicode.Name
import TaggedYaml.Unicode.Property
import TaggedYaml.Unicode.Rule
import TaggedYaml.Unicode.Run
import TaggedYaml.Unicode.ScriptTable
import TaggedYaml.Value.Basic
import TaggedYaml.Value.Json
import TaggedYaml.Value.OfTree
import TaggedYaml.Proofs.Tree.Below
import TaggedYaml.Proofs.Tree.Preorder
import TaggedYaml.Proofs.Tree.Visits
import TaggedYaml.Proofs.Tree.Calls
import TaggedYaml.Proofs.Tree.Together
import TaggedYaml.Proofs.Tree.Ceilings
import TaggedYaml.Proofs.Tree.Chains
import TaggedYaml.Proofs.Tree.Transparent
import TaggedYaml.Proofs.Tree.Unshared
import TaggedYaml.Proofs.Tree.Gathered
import TaggedYaml.Proofs.Shape.OfData
import TaggedYaml.Proofs.Tree.Collected
import TaggedYaml.Proofs.Json.Grammar
import TaggedYaml.Proofs.Json.Strict
import TaggedYaml.Proofs.Json.Keeps
import TaggedYaml.Proofs.Json.Agree
import TaggedYaml.Proofs.Tree.Survives
import TaggedYaml.Proofs.Tree.Simultaneous
import TaggedYaml.Proofs.Tree.Reformat
import TaggedYaml.Proofs.Pattern.Unquote
import TaggedYaml.Proofs.Pattern.Strip
import TaggedYaml.Proofs.Pattern.Calm
import TaggedYaml.Proofs.Shape.Segments
import TaggedYaml.Proofs.Shape.Bare
import TaggedYaml.Proofs.Shape.Freed
import TaggedYaml.Proofs.Tree.Stripped
import TaggedYaml.Proofs.Pattern.Erase
import TaggedYaml.Proofs.Shape.Pairs
import TaggedYaml.Proofs.Tree.Entries
import TaggedYaml.Proofs.Tree.Scalars
import TaggedYaml.Proofs.Json.Records
import TaggedYaml.Proofs.Json.Unordered
import TaggedYaml.Proofs.Json.SettingsFile
import TaggedYaml.Proofs.Tree.Untagged
import TaggedYaml.Proofs.Tree.Links
import TaggedYaml.Proofs.Scalar.Forms
import TaggedYaml.Proofs.Tree.Unquoted
