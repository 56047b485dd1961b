import FsspecDb.Lib.Transition
import FsspecDb.Lib.Mealy
import FsspecDb.Lib.Quote
import FsspecDb.Lib.Nesting
import FsspecDb.Lib.Checked
import FsspecDb.Lib.Csv
import FsspecDb.Lib.Keyed
import FsspecDb.Lib.Grouping
import FsspecDb.Lib.GroupBy
import FsspecDb.Lib.Lru
import FsspecDb.Lib.Reading
import FsspecDb.Error
import FsspecDb.Types
import FsspecDb.Arrow
import FsspecDb.Utf8
import FsspecDb.Utf8.Exact
import FsspecDb.Utf8.Boundary
import FsspecDb.Float
import FsspecDb.Text
import FsspecDb.Text.Split
import FsspecDb.Path
import FsspecDb.Path.Components
import FsspecDb.Path.Names
import FsspecDb.Path.Builders
import FsspecDb.Path.Decode
import FsspecDb.Path.Query
import FsspecDb.Path.Canonical
import FsspecDb.Path.Boundary
import FsspecDb.Path.Weight
import FsspecDb.Path.Urllib
import FsspecDb.Path.FormEncoding
import FsspecDb.Stream.Worker
import FsspecDb.Stream.Pool
import FsspecDb.Stream.Delivery
import FsspecDb.Stream.Chunks
import FsspecDb.Stream.Outcome
import FsspecDb.Stream.Receive
import FsspecDb.Stream.Native
import FsspecDb.Stream.Declared
import FsspecDb.Stream.MySqlColumns
import FsspecDb.Stream.PostgresColumns
import FsspecDb.Stream.ServerQueries
import FsspecDb.Sqlite.Rows
import FsspecDb.Sqlite.Rank
import FsspecDb.Sqlite.Batch
import FsspecDb.Sqlite.Query
import FsspecDb.Encoded.File
import FsspecDb.Encoded.Fill
import FsspecDb.Encoded.Cursor
import FsspecDb.Encoded.Honest
import FsspecDb.Encoded.Failure
import FsspecDb.Encoded.Complete
import FsspecDb.Encoded.Lazy
import FsspecDb.Fs.Metadata
import FsspecDb.Fs.Cache
import FsspecDb.Fs.DatabaseFs
import FsspecDb.Fs.Coherence
import FsspecDb.Fs.Race
import FsspecDb.Fs.Recency
import FsspecDb.Fs.Eviction
import FsspecDb.Fs.Listings
import FsspecDb.Fs.Entries
import FsspecDb.Fs.Open
import FsspecDb.Fs.CatFile
import FsspecDb.Fs.DdlFile
import FsspecDb.Fs.DependsOn
import FsspecDb.Fs.Dependencies
import FsspecDb.Fs.Unambiguous
import FsspecDb.Fs.PyDbFile
import FsspecDb.Fs.PyDbFileRuns
import FsspecDb.Fs.Threads
import FsspecDb.Fs.Writes
import FsspecDb.Fs.Sessions
import FsspecDb.Fs.Walk
import FsspecDb.Sql.Statements
import FsspecDb.Sql.Literal
import FsspecDb.Sql.Tokens
import FsspecDb.Sql.Lexing
import FsspecDb.Sql.Grammar
import FsspecDb.Sql.TableText
import FsspecDb.Sql.Intended
import FsspecDb.Sql.Predicate
import FsspecDb.Sql.Options
import FsspecDb.Sql.Dependencies
import FsspecDb.Sql.ReadShaping
import FsspecDb.Sql.Guarded
import FsspecDb.Sql.DirectRead
import FsspecDb.Ddl.Paths
import FsspecDb.Ddl.Named
import FsspecDb.Ddl.UrlText
import FsspecDb.Ddl.Parsers
import FsspecDb.Ddl.QueryText
import FsspecDb.Ddl.BodyText
import FsspecDb.Ddl.ProtocolText
import FsspecDb.Ddl.BareText
import FsspecDb.Ddl.BodyForms
import FsspecDb.Ddl.QueryBreaks
import FsspecDb.Ddl.Readings
import FsspecDb.Ddl.Alike
import FsspecDb.Ddl.Written
import FsspecDb.Ddl.Mixin
import FsspecDb.Ddl.Agreement
import FsspecDb.Ddl.Plain
import FsspecDb.Ddl.Create
import FsspecDb.Insert.Bind
import FsspecDb.Insert.Copy
import FsspecDb.Insert.Engine
import FsspecDb.Insert.Native
import FsspecDb.Insert.Stored
import FsspecDb.Insert.Transaction
import FsspecDb.Insert.Atomic
import FsspecDb.Insert.Read
import FsspecDb.Insert.TextColumns
import FsspecDb.Sqlite.Cells
import FsspecDb.Sqlite.Chunk
import FsspecDb.Sqlite.Typing
import FsspecDb.Sqlite.Insert
import FsspecDb.Sqlite.RoundTrip
import FsspecDb.Write.Handle
import FsspecDb.Write.Methods
import FsspecDb.Write.Discipline
import FsspecDb.Write.Locks
import FsspecDb.Insert.Reordered
import FsspecDb.Insert.ByName
import FsspecDb.Insert.SqlAlchemy
import FsspecDb.Insert.DuckDb
import FsspecDb.Insert.Overwrite
import FsspecDb.Insert.Issued
import FsspecDb.Insert.Limits
import FsspecDb.Insert.Parameters
import FsspecDb.Bridge.Params
import FsspecDb.Bridge.FileInfo
import FsspecDb.Bridge.Metadata
import FsspecDb.Bridge.PyObjects
import FsspecDb.Bridge.PyDatabase
import FsspecDb.Bridge.Direct
import FsspecDb.Bridge.Conformance
import FsspecDb.Bridge.Adapters
import FsspecDb.Constraints.Sqlite
import FsspecDb.Constraints.InformationSchema
import FsspecDb.Constraints.KeyColumns
import FsspecDb.Sqlite.Catalog
import FsspecDb.Sqlite.Namespace
import FsspecDb.Sqlite.Walk
import FsspecDb.Servers.Aggregates
import FsspecDb.Servers.Declared
import FsspecDb.Servers.MySqlIndexes
import FsspecDb.Servers.MySqlKeys
import FsspecDb.Servers.MySqlReport
import FsspecDb.Servers.PostgresIndexes
import FsspecDb.Client.Calls
import FsspecDb.Client.Fresh
import FsspecDb.Client.Transparent
import FsspecDb.Client.Dsn
