import RecordGraph.Arena
import RecordGraph.Calendar
import RecordGraph.Error
import RecordGraph.Json
import RecordGraph.Number.Binary
import RecordGraph.Number.Literal
import RecordGraph.Number.Shortest
import RecordGraph.Object.Basic
import RecordGraph.Object.Field
import RecordGraph.Object.Find
import RecordGraph.Object.Operations
import RecordGraph.OrderedMap
import RecordGraph.Pattern
import RecordGraph.Pattern.CharSet
import RecordGraph.Pattern.Node
import RecordGraph.Pattern.Reader
import RecordGraph.Proofs.Ancestry
import RecordGraph.Proofs.Computation
import RecordGraph.Proofs.Generations
import RecordGraph.Proofs.Number.Decimal
import RecordGraph.Proofs.Number.Literal
import RecordGraph.Proofs.Number.Rounding
import RecordGraph.Proofs.Object.Building
import RecordGraph.Proofs.Object.Listing
import RecordGraph.Proofs.Object.Reading
import RecordGraph.Proofs.Object.Searching
import RecordGraph.Proofs.Object.Shown
import RecordGraph.Proofs.Object.Tracking
import RecordGraph.Proofs.Object.Traversal
import RecordGraph.Proofs.Object.Validity
import RecordGraph.Proofs.OrderedMap
import RecordGraph.Proofs.Preorder
import RecordGraph.Proofs.Proxy.Caching
import RecordGraph.Proofs.Proxy.Cardinality
import RecordGraph.Proofs.Proxy.Reading
import RecordGraph.Proofs.Proxy.Resolution
import RecordGraph.Proofs.Proxy.Writing
import RecordGraph.Proofs.Registry.Current
import RecordGraph.Proofs.Registry.Derivation
import RecordGraph.Proofs.Registry.Evolution
import RecordGraph.Proofs.Registry.Learning
import RecordGraph.Proofs.Registry.Membership
import RecordGraph.Proofs.Registry.Refresh
import RecordGraph.Proofs.Registry.Rooted
import RecordGraph.Proofs.Schema.Acceptance
import RecordGraph.Proofs.Schema.Coercion
import RecordGraph.Proofs.Schema.Items
import RecordGraph.Proofs.Schema.Loading
import RecordGraph.Proofs.Schema.Narrowing
import RecordGraph.Proofs.Schema.RangeText
import RecordGraph.Proofs.Session.Adding
import RecordGraph.Proofs.Session.Answering
import RecordGraph.Proofs.Session.Assigning
import RecordGraph.Proofs.Session.Building
import RecordGraph.Proofs.Session.Coherence
import RecordGraph.Proofs.Session.Collecting
import RecordGraph.Proofs.Session.Completeness
import RecordGraph.Proofs.Session.Confining
import RecordGraph.Proofs.Session.Covering
import RecordGraph.Proofs.Session.Declaring
import RecordGraph.Proofs.Session.Destroying
import RecordGraph.Proofs.Session.Errands
import RecordGraph.Proofs.Session.Feasibility
import RecordGraph.Proofs.Session.Framing
import RecordGraph.Proofs.Session.Growth
import RecordGraph.Proofs.Session.Hydration
import RecordGraph.Proofs.Session.Identity
import RecordGraph.Proofs.Session.Idling
import RecordGraph.Proofs.Session.Indexing
import RecordGraph.Proofs.Session.Interruption
import RecordGraph.Proofs.Session.Keeping
import RecordGraph.Proofs.Session.Loading
import RecordGraph.Proofs.Session.Maintaining
import RecordGraph.Proofs.Session.Managing
import RecordGraph.Proofs.Session.Materializing
import RecordGraph.Proofs.Session.Mirror
import RecordGraph.Proofs.Session.Mirroring
import RecordGraph.Proofs.Session.Opening
import RecordGraph.Proofs.Session.Persisting
import RecordGraph.Proofs.Session.Policies
import RecordGraph.Proofs.Session.Populating
import RecordGraph.Proofs.Session.Preparing
import RecordGraph.Proofs.Session.Progress
import RecordGraph.Proofs.Session.Recording
import RecordGraph.Proofs.Session.Refusing
import RecordGraph.Proofs.Session.Remembering
import RecordGraph.Proofs.Session.Renaming
import RecordGraph.Proofs.Session.Rereading
import RecordGraph.Proofs.Session.Restoring
import RecordGraph.Proofs.Session.RoundTrip
import RecordGraph.Proofs.Session.Serving
import RecordGraph.Proofs.Session.Sparing
import RecordGraph.Proofs.Session.Storing
import RecordGraph.Proofs.Session.Updating
import RecordGraph.Proofs.Session.Writing
import RecordGraph.Proofs.Store.Atomicity
import RecordGraph.Proofs.Store.Creation
import RecordGraph.Proofs.Store.Distances
import RecordGraph.Proofs.Store.Finding
import RecordGraph.Proofs.Store.Holding
import RecordGraph.Proofs.Store.Inheritance
import RecordGraph.Proofs.Store.Integrity
import RecordGraph.Proofs.Store.Lineage
import RecordGraph.Proofs.Store.Listing
import RecordGraph.Proofs.Store.Locking
import RecordGraph.Proofs.Store.Operation
import RecordGraph.Proofs.Store.Reading
import RecordGraph.Proofs.Store.Retention
import RecordGraph.Proofs.Store.Shape
import RecordGraph.Proofs.Store.Visibility
import RecordGraph.Proofs.Store.Writing
import RecordGraph.Proofs.Text.Cutting
import RecordGraph.Proofs.Text.Matching
import RecordGraph.Proofs.Text.RunTable
import RecordGraph.Proofs.Visit
import RecordGraph.Proxy.Basic
import RecordGraph.Proxy.Operations
import RecordGraph.Reach
import RecordGraph.Registry.Basic
import RecordGraph.Registry.ClassType
import RecordGraph.Registry.Refresh
import RecordGraph.Schema.Attribute
import RecordGraph.Schema.AttributeType
import RecordGraph.Schema.ClassSchema
import RecordGraph.Schema.Coercion
import RecordGraph.Schema.Document
import RecordGraph.Schema.Hierarchy
import RecordGraph.Schema.Range
import RecordGraph.Session.Basic
import RecordGraph.Session.Cache
import RecordGraph.Session.Hydrate
import RecordGraph.Session.Operations
import RecordGraph.Session.Persist
import RecordGraph.Store.Basic
import RecordGraph.Store.Database
import RecordGraph.Store.Operations
import RecordGraph.Text.Blank
import RecordGraph.Text.CaseFold
import RecordGraph.Text.Category
import RecordGraph.Text.Property
import RecordGraph.Text.Quoted
import RecordGraph.Text.RunTable
import RecordGraph.Text.Script
import RecordGraph.Value
import RecordGraph.Visit
import RecordGraph.World
