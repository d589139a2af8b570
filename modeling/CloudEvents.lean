import CloudEvents.Attribute
import CloudEvents.Batch
import CloudEvents.Bytes
import CloudEvents.Candidate.Basic
import CloudEvents.Candidate.Calls
import CloudEvents.Candidate.Display
import CloudEvents.Candidate.Dump
import CloudEvents.Candidate.Entries
import CloudEvents.Codec
import CloudEvents.Construction.Built
import CloudEvents.Construction.Envelope
import CloudEvents.Construction.Fields
import CloudEvents.Construction.Values
import CloudEvents.DecodeError
import CloudEvents.Error
import CloudEvents.Event
import CloudEvents.EventData
import CloudEvents.EventText
import CloudEvents.Log
import CloudEvents.Main
import CloudEvents.NameMap
import CloudEvents.Number.Binary64
import CloudEvents.Number.Format
import CloudEvents.Number.Rounding
import CloudEvents.Number.Shortest
import CloudEvents.Program.Arguments
import CloudEvents.Program.Basic
import CloudEvents.Program.Benchmark
import CloudEvents.Program.Demo
import CloudEvents.Proofs.BatchDecoding
import CloudEvents.Proofs.CanonicalEncoding
import CloudEvents.Proofs.Containment
import CloudEvents.Proofs.DistinctForms
import CloudEvents.Proofs.DroppedFields
import CloudEvents.Proofs.FieldOrder
import CloudEvents.Proofs.Framing
import CloudEvents.Proofs.Gates
import CloudEvents.Proofs.Histories
import CloudEvents.Proofs.Interpretation
import CloudEvents.Proofs.Merging
import CloudEvents.Proofs.NameOrder
import CloudEvents.Proofs.RoundTrip
import CloudEvents.Proofs.Segments
import CloudEvents.Proofs.SoundValues
import CloudEvents.Proofs.Spellings
import CloudEvents.Proofs.UnknownFields
import CloudEvents.Proofs.Views
import CloudEvents.Proofs.WireConstruction
import CloudEvents.Proofs.WrittenForms
import CloudEvents.Schema
import CloudEvents.Text.CodePoints
import CloudEvents.Text.Digit
import CloudEvents.Text.Numeral
import CloudEvents.Text.Printable
import CloudEvents.Text.Quoted
import CloudEvents.Time.Calendar
import CloudEvents.Time.DateTime
import CloudEvents.Time.Rfc3339
import CloudEvents.Timestamp
import CloudEvents.Violation
import CloudEvents.Vocabulary
import CloudEvents.Wire.AttributeMessage
import CloudEvents.Wire.BatchMessage
import CloudEvents.Wire.Embedded
import CloudEvents.Wire.EventMessage
import CloudEvents.Wire.Message
import CloudEvents.Wire.Record
import CloudEvents.Wire.Varint
import CloudEvents.Proofs.WireLayout
import CloudEvents.Proofs.BatchEncoding
import CloudEvents.Proofs.Truncation
import CloudEvents.Proofs.InsertedFields
import CloudEvents.Proofs.Appending
import CloudEvents.Proofs.Reencoding
import CloudEvents.Proofs.Refilling
import CloudEvents.Proofs.Days
import CloudEvents.Proofs.Instants
import CloudEvents.Proofs.Numerals
import CloudEvents.Proofs.RoundingError
import CloudEvents.Proofs.TimestampParts
import CloudEvents.Proofs.TimestampReading
import CloudEvents.Proofs.TimestampWriting
import CloudEvents.Proofs.Microseconds
import CloudEvents.Proofs.Updates
import CloudEvents.Proofs.LooseArguments
import CloudEvents.Proofs.AddedEntries
import CloudEvents.Proofs.WireIntegers
import CloudEvents.Proofs.Rebuilding
import CloudEvents.Proofs.TextEncoding
import CloudEvents.Proofs.Simulations
import CloudEvents.Proofs.BenchmarkEvents
import CloudEvents.Proofs.BenchmarkSizes
import CloudEvents.Proofs.BenchmarkRuns
