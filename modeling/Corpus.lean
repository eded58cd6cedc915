import Corpus.Access.Call
import Corpus.Access.Gate
import Corpus.Access.Permission
import Corpus.Analysis.Analyzer
import Corpus.Analysis.Filter
import Corpus.Analysis.Tokenizer
import Corpus.Catalog
import Corpus.Config
import Corpus.Config.Reader
import Corpus.Data.Codec
import Corpus.Data.Dict
import Corpus.Data.DocSet
import Corpus.Data.Total
import Corpus.Digest.Crc32
import Corpus.Digest.Sha1
import Corpus.Digest.Uuid
import Corpus.Drilldown.Aggregate
import Corpus.Drilldown.Request
import Corpus.Error
import Corpus.Identity
import Corpus.Index.Document
import Corpus.Index.Facets
import Corpus.Index.Numbers
import Corpus.Index.Posting
import Corpus.Index.Segment
import Corpus.Index.Shards
import Corpus.Index.Terms
import Corpus.Indexing
import Corpus.Number.Binary
import Corpus.Number.Key
import Corpus.Number.Numeral
import Corpus.Number.Shortest
import Corpus.Plan.Basic
import Corpus.Plan.OfQuery
import Corpus.Plan.Simplify
import Corpus.Query.Basic
import Corpus.Query.Parser
import Corpus.Query.Pattern
import Corpus.Queue.Barrier
import Corpus.Queue.Event
import Corpus.Queue.Indexer
import Corpus.Record
import Corpus.Schema
import Corpus.Search.Cache
import Corpus.Search.Evaluate
import Corpus.Search.Limit
import Corpus.Search.Prepared
import Corpus.Search.Ranking
import Corpus.Search.Score
import Corpus.Service.Basic
import Corpus.Service.Request
import Corpus.Store.Basic
import Corpus.Store.Group
import Corpus.Text.Blank
import Corpus.Text.Case
import Corpus.Text.Glob
import Corpus.Text.Glob.Room
import Corpus.Text.Bytes
import Corpus.Text.Json
import Corpus.Text.Letter
import Corpus.Text.Mark
import Corpus.Text.Printable
import Corpus.Text.Quoted
import Corpus.Text.Reading
import Corpus.Text.Runs
import Corpus.Text.Stem
import Corpus.Text.Word
import Corpus.Text.Word.Class
import Corpus.Value
import Corpus.Proofs.Catalog
import Corpus.Proofs.Data.Dict
import Corpus.Proofs.Data.Failure
import Corpus.Proofs.Drilldown.Scope
import Corpus.Proofs.Index.Document
import Corpus.Proofs.Index.Facets
import Corpus.Proofs.Index.Fields
import Corpus.Proofs.Index.History
import Corpus.Proofs.Index.Numbers
import Corpus.Proofs.Index.Segment
import Corpus.Proofs.Index.Shards
import Corpus.Proofs.Index.Terms
import Corpus.Proofs.Number.Key
import Corpus.Proofs.Number.Neutral
import Corpus.Proofs.Plan.Simplify
import Corpus.Proofs.Query.Enclosed
import Corpus.Proofs.Query.Growth
import Corpus.Proofs.Query.Lexical
import Corpus.Proofs.Query.Reading
import Corpus.Proofs.Queue.Change
import Corpus.Proofs.Queue.Indexer
import Corpus.Proofs.Queue.Pending
import Corpus.Proofs.Queue.Settling
import Corpus.Proofs.Search.Algebra
import Corpus.Proofs.Search.Cache
import Corpus.Proofs.Search.Deep
import Corpus.Proofs.Search.Limit
import Corpus.Proofs.Search.Matches
import Corpus.Proofs.Search.Ranking
import Corpus.Proofs.Search.Scan
import Corpus.Proofs.Search.Sharding
import Corpus.Proofs.Search.Statistics
import Corpus.Proofs.Search.Window
import Corpus.Proofs.Service.Action
import Corpus.Proofs.Service.Agreement
import Corpus.Proofs.Service.Algebra
import Corpus.Proofs.Service.Blind
import Corpus.Proofs.Service.Drilldown
import Corpus.Proofs.Service.History
import Corpus.Proofs.Service.Paging
import Corpus.Proofs.Service.Records
import Corpus.Proofs.Service.Standing
import Corpus.Proofs.Service.Step
import Corpus.Proofs.Service.Uncached
import Corpus.Proofs.Store.Records
import Corpus.Proofs.Text.Glob
import Corpus.Proofs.Text.Start
import Corpus.Proofs.Identity
import Corpus.Proofs.Service.Identity
import Corpus.Proofs.Store.Partition
import Corpus.Proofs.Store.Contents
import Corpus.Proofs.Drilldown.Filters
import Corpus.Proofs.Service.Narrowing
import Corpus.Proofs.Drilldown.Tallies
import Corpus.Proofs.Drilldown.Levels
import Corpus.Proofs.Service.Navigation
import Corpus.Proofs.Text.Blank
import Corpus.Proofs.Number.Reading
import Corpus.Proofs.Analysis
import Corpus.Proofs.Index.Held
import Corpus.Proofs.Search.Finding
import Corpus.Proofs.Search.Recovery
import Corpus.Proofs.Text.Case
import Corpus.Proofs.Index.Reachable
import Corpus.Proofs.Drilldown.Buckets
import Corpus.Proofs.Service.Reachable
import Corpus.Proofs.Service.Buckets
import Corpus.Proofs.Service.Settled
import Corpus.Proofs.Data.Grouping
import Corpus.Proofs.Service.Batches
import Corpus.Proofs.Service.Put
import Corpus.Proofs.Data.Codec
import Corpus.Proofs.Store.Group
import Corpus.Proofs.Catalog.Incarnation
import Corpus.Proofs.Access.Undenied
import Corpus.Proofs.Access.Gate
import Corpus.Proofs.Access.Reading
import Corpus.Proofs.Query.Writing
import Corpus.Proofs.Query.RoundTrip
import Corpus.Queue.Relay
import Corpus.Proofs.Queue.Advance
import Corpus.Proofs.Queue.Relay
import Corpus.Proofs.Queue.Waiting
import Corpus.Proofs.Queue.Confluence
import Corpus.Proofs.Queue.Carried
import Corpus.Proofs.Store.Bare
import Corpus.Proofs.Queue.Alike
import Corpus.Proofs.Service.Hidden
import Corpus.Proofs.Service.Unseen
import Corpus.Index.Interval
import Corpus.Proofs.Index.Interval
import Corpus.Proofs.Query.Single
import Corpus.Proofs.Search.Between
import Corpus.Proofs.Data.Nested
import Corpus.Proofs.Index.Tidy
import Corpus.Proofs.Index.Renaming
import Corpus.Proofs.Index.Survivors
import Corpus.Proofs.Number.Rounding
import Corpus.Proofs.Store.Listing
import Corpus.Proofs.Service.Origin
import Corpus.Proofs.Search.Times
import Corpus.Proofs.Service.Times
import Corpus.Proofs.Service.Naming
import Corpus.Proofs.Search.Ids
import Corpus.Proofs.Service.Ids
import Corpus.Proofs.Drilldown.Apart
import Corpus.Proofs.Store.Windows
import Corpus.Proofs.Service.Intervals
import Corpus.Proofs.Service.Negation
import Corpus.Proofs.Drilldown.Arrangement
import Corpus.Proofs.Service.Membership
import Corpus.Proofs.Search.Holding
import Corpus.Proofs.Search.Phrase
import Corpus.Proofs.Plan.Normal
import Corpus.Proofs.Search.Collecting
import Corpus.Proofs.Index.Lookup
import Corpus.Proofs.Index.Places
import Corpus.Proofs.Index.Positions
import Corpus.Proofs.Index.Posting
import Corpus.Proofs.Search.Prefix
import Corpus.Proofs.Number.Order
import Corpus.Proofs.Query.Ending
import Corpus.Proofs.Query.Proper
