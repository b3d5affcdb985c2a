import ColumnFile.Bitmap
import ColumnFile.Bitmap.Machine
import ColumnFile.Block.Basic
import ColumnFile.Block.Inflate
import ColumnFile.Block.Lz4
import ColumnFile.Block.Zlib
import ColumnFile.Block.Zstd
import ColumnFile.Buffer
import ColumnFile.Buffer.Machine
import ColumnFile.Bytes
import ColumnFile.Codec
import ColumnFile.Codec.Machine
import ColumnFile.Column.Attributes
import ColumnFile.Column.Basic
import ColumnFile.Column.Decode
import ColumnFile.Column.Fixed
import ColumnFile.Column.Machine
import ColumnFile.Column.Nulls
import ColumnFile.Column.ToastRef
import ColumnFile.Column.Variable
import ColumnFile.Datum.Basic
import ColumnFile.Datum.Number
import ColumnFile.Datum.Stored
import ColumnFile.Datum.Text
import ColumnFile.Decimal.Shortest
import ColumnFile.Dictionary
import ColumnFile.Fault
import ColumnFile.Fault.Message
import ColumnFile.Footer
import ColumnFile.Integer.Delta
import ColumnFile.Integer.Difference
import ColumnFile.Integer.Items
import ColumnFile.Integer.Packing
import ColumnFile.Integer.Varint
import ColumnFile.Integer.Width
import ColumnFile.Integer.Writer
import ColumnFile.Integer.Zigzag
import ColumnFile.Layout.Annotations
import ColumnFile.Layout.Describe
import ColumnFile.Layout.Hexdump
import ColumnFile.Library
import ColumnFile.Machine
import ColumnFile.Message.Basic
import ColumnFile.Message.Footer
import ColumnFile.Message.Options
import ColumnFile.Message.Schema
import ColumnFile.Message.Statistics
import ColumnFile.Message.Stripe
import ColumnFile.MessagePack.Decode
import ColumnFile.MessagePack.Encode
import ColumnFile.MessagePack.Shape
import ColumnFile.MessagePack.Value
import ColumnFile.Options.Reader
import ColumnFile.Options.Writer
import ColumnFile.Proofs.Bitmap
import ColumnFile.Proofs.Block.Expansion
import ColumnFile.Proofs.Buffer
import ColumnFile.Proofs.Buffer.Calls
import ColumnFile.Proofs.Buffer.Machine
import ColumnFile.Proofs.Codec
import ColumnFile.Proofs.Codec.Machine
import ColumnFile.Proofs.Column.Basic
import ColumnFile.Proofs.Column.Contents
import ColumnFile.Proofs.Column.Decode
import ColumnFile.Proofs.Column.Described
import ColumnFile.Proofs.Column.Fixed
import ColumnFile.Proofs.Column.Machine
import ColumnFile.Proofs.Column.Marked
import ColumnFile.Proofs.Column.Nulls
import ColumnFile.Proofs.Column.Ranges
import ColumnFile.Proofs.Column.Refused
import ColumnFile.Proofs.Column.RoundTrip
import ColumnFile.Proofs.Column.Untrusted
import ColumnFile.Proofs.Column.Variable
import ColumnFile.Proofs.Datum.Stored
import ColumnFile.Proofs.Dictionary
import ColumnFile.Proofs.Fault
import ColumnFile.Proofs.Integer.BitStream
import ColumnFile.Proofs.Integer.Bits
import ColumnFile.Proofs.Integer.Cursor
import ColumnFile.Proofs.Integer.Delta
import ColumnFile.Proofs.Integer.Difference
import ColumnFile.Proofs.Integer.Extremum
import ColumnFile.Proofs.Integer.Items
import ColumnFile.Proofs.Integer.Packing
import ColumnFile.Proofs.Integer.Trailing
import ColumnFile.Proofs.Integer.Varint
import ColumnFile.Proofs.Integer.Width
import ColumnFile.Proofs.Integer.Writer
import ColumnFile.Proofs.Layout.Dump
import ColumnFile.Proofs.Layout.Flags
import ColumnFile.Proofs.Layout.Tiling
import ColumnFile.Proofs.Machine
import ColumnFile.Proofs.Message.Accepted
import ColumnFile.Proofs.Message.File
import ColumnFile.Proofs.Message.Schema
import ColumnFile.Proofs.Message.Statistics
import ColumnFile.Proofs.MessagePack.Accepted
import ColumnFile.Proofs.MessagePack.Shape
import ColumnFile.Proofs.MessagePack.Value
import ColumnFile.Proofs.Reader.Basic
import ColumnFile.Proofs.Reader.Group
import ColumnFile.Proofs.Reader.Statistics
import ColumnFile.Proofs.Reader.Stripe
import ColumnFile.Proofs.RunLength.Bounds
import ColumnFile.Proofs.RunLength.Decoder
import ColumnFile.Proofs.RunLength.Encoder
import ColumnFile.Proofs.RunLength.Length
import ColumnFile.Proofs.RunLength.Literals
import ColumnFile.Proofs.RunLength.Machine
import ColumnFile.Proofs.RunLength.Operations
import ColumnFile.Proofs.RunLength.Outliers
import ColumnFile.Proofs.RunLength.Patch
import ColumnFile.Proofs.RunLength.Resume
import ColumnFile.Proofs.RunLength.Run
import ColumnFile.Proofs.Statistics.Bloom
import ColumnFile.Proofs.Statistics.Collector
import ColumnFile.Proofs.Statistics.Equal
import ColumnFile.Proofs.Statistics.Machine
import ColumnFile.Proofs.Statistics.Merge
import ColumnFile.Proofs.Statistics.Range
import ColumnFile.Proofs.Store.Basic
import ColumnFile.Proofs.Store.Path
import ColumnFile.Proofs.Stripe.ColumnSet
import ColumnFile.Proofs.Stripe.Fallback
import ColumnFile.Proofs.Stripe.Faults
import ColumnFile.Proofs.Stripe.Image
import ColumnFile.Proofs.Stripe.Learned
import ColumnFile.Proofs.Stripe.RoundTrip
import ColumnFile.Proofs.Stripe.Sized
import ColumnFile.Proofs.Stripe.Streams
import ColumnFile.Proofs.Writer.Access
import ColumnFile.Proofs.Writer.Accounts
import ColumnFile.Proofs.Writer.Basic
import ColumnFile.Proofs.Writer.Calls
import ColumnFile.Proofs.Writer.Close
import ColumnFile.Proofs.Writer.Closed
import ColumnFile.Proofs.Writer.Crew
import ColumnFile.Proofs.Writer.Directory
import ColumnFile.Proofs.Writer.Failed
import ColumnFile.Proofs.Writer.Fallback
import ColumnFile.Proofs.Writer.Faults
import ColumnFile.Proofs.Writer.Journal
import ColumnFile.Proofs.Writer.Laid
import ColumnFile.Proofs.Writer.Layout
import ColumnFile.Proofs.Writer.Ledger
import ColumnFile.Proofs.Writer.Merge
import ColumnFile.Proofs.Writer.Outside
import ColumnFile.Proofs.Writer.Pool
import ColumnFile.Proofs.Writer.Rejected
import ColumnFile.Proofs.Writer.Removed
import ColumnFile.Proofs.Writer.Replay
import ColumnFile.Proofs.Writer.Rows
import ColumnFile.Proofs.Writer.Run
import ColumnFile.Proofs.Writer.Session
import ColumnFile.Proofs.Writer.Shape
import ColumnFile.Proofs.Writer.Statistics
import ColumnFile.Proofs.Writer.Steps
import ColumnFile.Proofs.Writer.Stored
import ColumnFile.Proofs.Writer.Summary
import ColumnFile.Reader.Basic
import ColumnFile.Reader.Group
import ColumnFile.Reader.Stripe
import ColumnFile.Rope
import ColumnFile.RunLength.Decoder
import ColumnFile.RunLength.Encoder
import ColumnFile.RunLength.Machine
import ColumnFile.RunLength.Patch
import ColumnFile.RunLength.Run
import ColumnFile.Schema.Checked
import ColumnFile.Schema.Encoding
import ColumnFile.Schema.Kind
import ColumnFile.Statistics.Basic
import ColumnFile.Statistics.Bloom
import ColumnFile.Statistics.Collector
import ColumnFile.Statistics.Digest
import ColumnFile.Statistics.Machine
import ColumnFile.Statistics.Range
import ColumnFile.Store.Basic
import ColumnFile.Store.Path
import ColumnFile.Store.Place
import ColumnFile.Stripe.ColumnSet
import ColumnFile.Stripe.Decode
import ColumnFile.Stripe.Information
import ColumnFile.Stripe.Serialize
import ColumnFile.Stripe.Stream
import ColumnFile.Text.Hex
import ColumnFile.Text.Quoted
import ColumnFile.Text.Utf8
import ColumnFile.Text.Visible
import ColumnFile.Writer.Basic
import ColumnFile.Writer.Close
import ColumnFile.Writer.Merge
import ColumnFile.Writer.Write
