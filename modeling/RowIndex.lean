import RowIndex.Binary.Arithmetic
import RowIndex.Binary.Format
import RowIndex.Binary.Rounding
import RowIndex.Bytes.Hex
import RowIndex.Codec.Basic
import RowIndex.Codec.Definition
import RowIndex.Codec.Document
import RowIndex.Codec.Query
import RowIndex.Codec.Record
import RowIndex.Codec.Row
import RowIndex.Decimal.Numeral
import RowIndex.Decimal.Positional
import RowIndex.Decimal.Shortest
import RowIndex.Document
import RowIndex.Error
import RowIndex.Field
import RowIndex.Hash.Xxh3
import RowIndex.Index.Basic
import RowIndex.Index.Engine
import RowIndex.Index.Inverted
import RowIndex.Index.Layout
import RowIndex.Index.Open
import RowIndex.Index.Plan
import RowIndex.Index.Scan
import RowIndex.Index.Settings
import RowIndex.Index.Term
import RowIndex.Int128
import RowIndex.Json.Basic
import RowIndex.Json.Number
import RowIndex.Json.Parser
import RowIndex.Json.Printer
import RowIndex.Mapper
import RowIndex.NameMap
import RowIndex.NameMap.Search
import RowIndex.Powers
import RowIndex.Program
import RowIndex.Proofs.Binary.Codes
import RowIndex.Proofs.Binary.Integers
import RowIndex.Proofs.Bytes.HexOrder
import RowIndex.Proofs.Bytes.HexText
import RowIndex.Proofs.Bytes.Utf8Order
import RowIndex.Proofs.Codec.Documents
import RowIndex.Proofs.Codec.Queries
import RowIndex.Proofs.Codec.Records
import RowIndex.Proofs.Codec.RoundTrip
import RowIndex.Proofs.Codec.Rows
import RowIndex.Proofs.Decimal.Numerals
import RowIndex.Proofs.Decimal.ShortestText
import RowIndex.Proofs.Index.BestHits
import RowIndex.Proofs.Index.Bindings
import RowIndex.Proofs.Index.Changes
import RowIndex.Proofs.Index.Declarations
import RowIndex.Proofs.Index.HitOrder
import RowIndex.Proofs.Index.Loading
import RowIndex.Proofs.Index.Mirrors
import RowIndex.Proofs.Index.Parity
import RowIndex.Proofs.Index.Plans
import RowIndex.Proofs.Index.Rejections
import RowIndex.Proofs.Index.Reopening
import RowIndex.Proofs.Index.ScanHits
import RowIndex.Proofs.Index.Steps
import RowIndex.Proofs.Index.Terms
import RowIndex.Proofs.Index.TextMatches
import RowIndex.Proofs.Index.Visibility
import RowIndex.Proofs.Json.Numbers
import RowIndex.Proofs.Json.Text
import RowIndex.Proofs.Outcomes
import RowIndex.Proofs.Programs
import RowIndex.Proofs.Query.Meaning
import RowIndex.Proofs.Query.SeparatedText
import RowIndex.Proofs.Row.Cells
import RowIndex.Proofs.Row.MergeOrder
import RowIndex.Proofs.Row.Reconciliation
import RowIndex.Proofs.Schema.Additions
import RowIndex.Proofs.Schema.Coercion
import RowIndex.Proofs.Schema.Fields
import RowIndex.Proofs.Schema.HexKeywords
import RowIndex.Proofs.Schema.IntegerForms
import RowIndex.Proofs.Schema.IntegerRanges
import RowIndex.Proofs.Schema.Queries
import RowIndex.Proofs.Schema.Readings
import RowIndex.Proofs.Schema.TermMatches
import RowIndex.Proofs.Service.Acceptance
import RowIndex.Proofs.Service.Atomicity
import RowIndex.Proofs.Service.Batches
import RowIndex.Proofs.Service.Documents
import RowIndex.Proofs.Service.ExactSearch
import RowIndex.Proofs.Service.Isolation
import RowIndex.Proofs.Service.KeyRecovery
import RowIndex.Proofs.Service.LateMutation
import RowIndex.Proofs.Service.MappedQueries
import RowIndex.Proofs.Service.Merging
import RowIndex.Proofs.Service.ReplicaSearch
import RowIndex.Proofs.Service.Replicas
import RowIndex.Proofs.Service.RingSearch
import RowIndex.Proofs.Service.Run
import RowIndex.Proofs.Service.ScoreColumn
import RowIndex.Proofs.Service.Search
import RowIndex.Proofs.Service.Synchronisation
import RowIndex.Proofs.Sorting
import RowIndex.Proofs.Store.LastWrite
import RowIndex.Proofs.Store.LiveRows
import RowIndex.Proofs.Store.Partitions
import RowIndex.Proofs.Text.Analyzers
import RowIndex.Proofs.Text.Runs
import RowIndex.Proofs.Token.Encoding
import RowIndex.Proofs.Token.Order
import RowIndex.Proofs.Token.RangeFilter
import RowIndex.Proofs.Token.Ring
import RowIndex.Query
import RowIndex.Row
import RowIndex.Schema
import RowIndex.Service.Basic
import RowIndex.Service.Definition
import RowIndex.Service.KeyField
import RowIndex.Service.RowOrder
import RowIndex.Service.TokenField
import RowIndex.SortOrder
import RowIndex.Store
import RowIndex.Text.Alphanumeric
import RowIndex.Text.Analysis
import RowIndex.Text.Blank
import RowIndex.Text.Casing
import RowIndex.Text.CodePointSet
import RowIndex.Text.LowerCase
import RowIndex.Text.Printable
import RowIndex.Text.Quoted
import RowIndex.Token
import RowIndex.TokenRange
import RowIndex.Value
