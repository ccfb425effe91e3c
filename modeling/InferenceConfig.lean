import InferenceConfig.Byte
import InferenceConfig.Cli.Run
import InferenceConfig.Cli.Usage
import InferenceConfig.Decimal.Shortest
import InferenceConfig.Document.Codec
import InferenceConfig.Document.Format
import InferenceConfig.Document.Location
import InferenceConfig.Document.Report
import InferenceConfig.Fault
import InferenceConfig.Field
import InferenceConfig.Folder.Convert
import InferenceConfig.Folder.FileTask
import InferenceConfig.Folder.Tree
import InferenceConfig.Json.Failure
import InferenceConfig.Json.Number
import InferenceConfig.Json.Reader
import InferenceConfig.Json.Scan
import InferenceConfig.Json.Skip
import InferenceConfig.Json.StringLiteral
import InferenceConfig.Json.Writer
import InferenceConfig.Log.Directive
import InferenceConfig.Log.Event
import InferenceConfig.Log.Filter
import InferenceConfig.Main
import InferenceConfig.Message
import InferenceConfig.Message.Selection
import InferenceConfig.Session
import InferenceConfig.Text.Escape
import InferenceConfig.Text.Form
import InferenceConfig.Text.Line
import InferenceConfig.Text.Quoted
import InferenceConfig.Unicode.Alphanumeric
import InferenceConfig.Unicode.Blank
import InferenceConfig.Unicode.CodeRange
import InferenceConfig.Unicode.Printable
import InferenceConfig.Unicode.Utf8
import InferenceConfig.Wire.Decode
import InferenceConfig.Wire.Encode
import InferenceConfig.Wire.Key
import InferenceConfig.Wire.Merge
import InferenceConfig.Wire.Skip
import InferenceConfig.Wire.Varint
import InferenceConfig.Proofs.Unicode.Utf8
import InferenceConfig.Proofs.Wire.Body
import InferenceConfig.Proofs.Field
import InferenceConfig.Proofs.Message
import InferenceConfig.Proofs.Wire.Spelling
import InferenceConfig.Proofs.Wire.Record
import InferenceConfig.Proofs.Wire.Segment
import InferenceConfig.Proofs.Message.Selection
import InferenceConfig.Proofs.Message.Splits
import InferenceConfig.Proofs.Wire.Reading
import InferenceConfig.Proofs.Wire.Agreement
import InferenceConfig.Proofs.Wire.Acceptance
import InferenceConfig.Proofs.Wire.RoundTrip
import InferenceConfig.Proofs.Wire.Truncation
import InferenceConfig.Proofs.Wire.Retired
import InferenceConfig.Proofs.Wire.Unknown
import InferenceConfig.Proofs.Wire.Merging
import InferenceConfig.Proofs.Wire.Delimited
import InferenceConfig.Proofs.Wire.Kinds
import InferenceConfig.Proofs.Wire.Growth
import InferenceConfig.Proofs.Wire.Trace
import InferenceConfig.Proofs.Wire.Capacity
import InferenceConfig.Proofs.Wire.Minimal
import InferenceConfig.Proofs.Session
import InferenceConfig.Proofs.Session.Heads
import InferenceConfig.Proofs.Text.Quoted
import InferenceConfig.Proofs.Text.Line
import InferenceConfig.Proofs.Text.Escape
import InferenceConfig.Proofs.Text.Acceptance
import InferenceConfig.Proofs.Text.RoundTrip
import InferenceConfig.Proofs.Text.Truncation
import InferenceConfig.Proofs.Text.Concatenation
import InferenceConfig.Proofs.Text.Margins
import InferenceConfig.Proofs.Text.Pairs
import InferenceConfig.Proofs.Json.Value
import InferenceConfig.Proofs.Json.StringLiteral
import InferenceConfig.Proofs.Json.Skip
import InferenceConfig.Proofs.Json.Denotation
import InferenceConfig.Proofs.Json.Reading
import InferenceConfig.Proofs.Json.Locality
import InferenceConfig.Proofs.Json.RoundTrip
import InferenceConfig.Proofs.Json.Size
import InferenceConfig.Proofs.Document.Decoding
import InferenceConfig.Proofs.Document.Conversion
import InferenceConfig.Proofs.Document.Truncation
import InferenceConfig.Proofs.Document.Summary
import InferenceConfig.Proofs.Document.Report
import InferenceConfig.Proofs.Document.Location
import InferenceConfig.Proofs.Document.Format
import InferenceConfig.Proofs.Document.Faults
import InferenceConfig.Proofs.Folder.Writing
import InferenceConfig.Proofs.Folder.Conversion
import InferenceConfig.Proofs.Folder.AllOrNothing
