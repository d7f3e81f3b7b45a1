import NodeSettings.Binary64.Basic
import NodeSettings.Binary64.Decimal
import NodeSettings.Calendar
import NodeSettings.Config.Aggregate
import NodeSettings.Config.Basic
import NodeSettings.Config.Document
import NodeSettings.Config.Environment
import NodeSettings.Config.File
import NodeSettings.Config.Key
import NodeSettings.Config.Overlay
import NodeSettings.Config.Validation
import NodeSettings.Config.View
import NodeSettings.Duration.Basic
import NodeSettings.Duration.Format
import NodeSettings.Duration.Parse
import NodeSettings.Failure
import NodeSettings.FileSystem.Basic
import NodeSettings.FileSystem.Name
import NodeSettings.FileSystem.Path
import NodeSettings.Log.Json
import NodeSettings.Log.Level
import NodeSettings.Log.Loggers
import NodeSettings.Log.Message
import NodeSettings.Log.Place
import NodeSettings.Log.Prune
import NodeSettings.Log.Record
import NodeSettings.Log.Setup
import NodeSettings.Proofs.Aggregate
import NodeSettings.Proofs.Binary64
import NodeSettings.Proofs.Binary64.Rounding
import NodeSettings.Proofs.Binary64.Value
import NodeSettings.Proofs.Creation
import NodeSettings.Proofs.Digits
import NodeSettings.Proofs.Directories
import NodeSettings.Proofs.Document
import NodeSettings.Proofs.Duration
import NodeSettings.Proofs.Duration.Canonical
import NodeSettings.Proofs.Duration.Grammar
import NodeSettings.Proofs.Duration.Part
import NodeSettings.Proofs.Duration.Precision
import NodeSettings.Proofs.Duration.Seconds
import NodeSettings.Proofs.Duration.Stripped
import NodeSettings.Proofs.Duration.Sum
import NodeSettings.Proofs.Environment
import NodeSettings.Proofs.EnvironmentOverlay
import NodeSettings.Proofs.Except
import NodeSettings.Proofs.FileSystem
import NodeSettings.Proofs.Gather
import NodeSettings.Proofs.Key
import NodeSettings.Proofs.Literal
import NodeSettings.Proofs.Load
import NodeSettings.Proofs.LoadRecords
import NodeSettings.Proofs.Log.Decode
import NodeSettings.Proofs.Log.Delivery
import NodeSettings.Proofs.Log.Line
import NodeSettings.Proofs.Log.Loggers
import NodeSettings.Proofs.Log.Prune
import NodeSettings.Proofs.Log.Record
import NodeSettings.Proofs.Log.RoundTrip
import NodeSettings.Proofs.Log.Setup
import NodeSettings.Proofs.Merge
import NodeSettings.Proofs.Overlay
import NodeSettings.Proofs.OverlayFault
import NodeSettings.Proofs.OverlayMerge
import NodeSettings.Proofs.OverlayOrder
import NodeSettings.Proofs.OverlayPrefix
import NodeSettings.Proofs.OverlayResult
import NodeSettings.Proofs.Override
import NodeSettings.Proofs.Peers
import NodeSettings.Proofs.RoundTrip
import NodeSettings.Proofs.Save
import NodeSettings.Proofs.Schema
import NodeSettings.Proofs.Session.Change
import NodeSettings.Proofs.Session.Effect
import NodeSettings.Proofs.Session.Emission
import NodeSettings.Proofs.Session.Frame
import NodeSettings.Proofs.Session.Handle
import NodeSettings.Proofs.Session.Independence
import NodeSettings.Proofs.Session.Invariant
import NodeSettings.Proofs.Session.Key
import NodeSettings.Proofs.Session.Reached
import NodeSettings.Proofs.Session.Save
import NodeSettings.Proofs.Session.Typing
import NodeSettings.Proofs.Session.View
import NodeSettings.Proofs.Text
import NodeSettings.Proofs.Validation
import NodeSettings.Proofs.ValidationOrder
import NodeSettings.Proofs.Value
import NodeSettings.Proofs.Yaml.Base64
import NodeSettings.Proofs.Yaml.Build.Fill
import NodeSettings.Proofs.Yaml.Build.Value
import NodeSettings.Proofs.Yaml.Compose
import NodeSettings.Proofs.Yaml.Cursor
import NodeSettings.Proofs.Yaml.DoubleQuoted
import NodeSettings.Proofs.Yaml.Encoding
import NodeSettings.Proofs.Yaml.Integer
import NodeSettings.Proofs.Yaml.Piece
import NodeSettings.Proofs.Yaml.PlainScalar
import NodeSettings.Proofs.Yaml.Read
import NodeSettings.Proofs.Yaml.Record
import NodeSettings.Proofs.Yaml.Representation
import NodeSettings.Proofs.Yaml.Scalar
import NodeSettings.Proofs.Yaml.Scan.Document
import NodeSettings.Proofs.Yaml.Scan.Run
import NodeSettings.Proofs.Yaml.Scan.Token
import NodeSettings.Proofs.Yaml.SingleQuoted
import NodeSettings.Proofs.Yaml.Write
import NodeSettings.Session.Basic
import NodeSettings.Session.Step
import NodeSettings.Setting
import NodeSettings.Setting.Name
import NodeSettings.Text.Basic
import NodeSettings.Text.Blank
import NodeSettings.Text.Case
import NodeSettings.Text.Digit
import NodeSettings.Text.Lines
import NodeSettings.Text.Numeral
import NodeSettings.Text.Printable
import NodeSettings.Text.Quoted
import NodeSettings.Text.Utf8
import NodeSettings.Value.Attribute
import NodeSettings.Value.Basic
import NodeSettings.Value.Literal
import NodeSettings.Yaml.Base64
import NodeSettings.Yaml.BlockScalar
import NodeSettings.Yaml.Build
import NodeSettings.Yaml.Character
import NodeSettings.Yaml.Compose
import NodeSettings.Yaml.Cursor
import NodeSettings.Yaml.Encoding
import NodeSettings.Yaml.Fault
import NodeSettings.Yaml.Layout
import NodeSettings.Yaml.Merge
import NodeSettings.Yaml.Node
import NodeSettings.Yaml.PlainScalar
import NodeSettings.Yaml.Property
import NodeSettings.Yaml.QuotedScalar
import NodeSettings.Yaml.Read
import NodeSettings.Yaml.ScalarValue
import NodeSettings.Yaml.Scan
import NodeSettings.Yaml.Style
import NodeSettings.Yaml.Tag
import NodeSettings.Yaml.Token
import NodeSettings.Yaml.Write
