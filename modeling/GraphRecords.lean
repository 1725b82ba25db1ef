import GraphRecords.Adapter.Recorded
import GraphRecords.Adapter.Scripted
import GraphRecords.Hook.Script
import GraphRecords.Json.Reader
import GraphRecords.Orm.Setup
import GraphRecords.Proofs.Columns.RoundTrip
import GraphRecords.Proofs.Filter.Lowering
import GraphRecords.Proofs.Filter.Ranges
import GraphRecords.Proofs.Hook.Before
import GraphRecords.Proofs.Model.Acceptance
import GraphRecords.Proofs.Model.Index
import GraphRecords.Proofs.Model.Linking
import GraphRecords.Proofs.Model.Serialization
import GraphRecords.Proofs.Orm.Attribution
import GraphRecords.Proofs.Orm.Connections
import GraphRecords.Proofs.Orm.Fetch
import GraphRecords.Proofs.Orm.GivenMembers
import GraphRecords.Proofs.Orm.LinkFrame
import GraphRecords.Proofs.Orm.Paging
import GraphRecords.Proofs.Orm.Reading
import GraphRecords.Proofs.Orm.Setup
import GraphRecords.Proofs.Query.EdgeUpdates
import GraphRecords.Proofs.Query.Fetch
import GraphRecords.Proofs.Query.KnownColumns
import GraphRecords.Proofs.Query.MetaSettings
import GraphRecords.Proofs.Query.NewRecords
import GraphRecords.Proofs.Query.RoundTrip
import GraphRecords.Proofs.Store.Atomicity
import GraphRecords.Proofs.Store.Batches
import GraphRecords.Proofs.Store.FilteredWrites
import GraphRecords.Proofs.Store.GeneratedKeys
import GraphRecords.Proofs.Store.Owners
import GraphRecords.Proofs.Store.Repetition
import GraphRecords.Proofs.Store.Sorting
import GraphRecords.Proofs.Store.StoredKeys
import GraphRecords.Proofs.Store.Uniqueness
