import TreeProtocol.Construction.Session
import TreeProtocol.Construction.Composite
import TreeProtocol.Construction.Journal
import TreeProtocol.Tree
import TreeProtocol.Table
import TreeProtocol.Walk
import TreeProtocol.Counting
import TreeProtocol.Arena.Sessions
import TreeProtocol.Arena.Json
import TreeProtocol.Json.Values
import TreeProtocol.Json.Printer
import TreeProtocol.Schema.File
import TreeProtocol.Proofs.Action
import TreeProtocol.Proofs.KeyMap
import TreeProtocol.Proofs.Session
import TreeProtocol.Proofs.Arena.Snapshots
import TreeProtocol.Proofs.Arena.Copies
import TreeProtocol.Proofs.Arena.History
import TreeProtocol.Proofs.Arena.Bounds
import TreeProtocol.Proofs.Arena.Conformance
import TreeProtocol.Proofs.Arena.Transactions
import TreeProtocol.Proofs.Brackets
import TreeProtocol.Proofs.BundleMap
import TreeProtocol.Proofs.Trees
import TreeProtocol.Proofs.Arena.Unfolding
import TreeProtocol.Proofs.Views
import TreeProtocol.Proofs.Walks.Complete
import TreeProtocol.Proofs.Walks.Copying
import TreeProtocol.Proofs.Walks.Agreement
import TreeProtocol.Proofs.Arena.Holding
import TreeProtocol.Proofs.Lifecycle
import TreeProtocol.Proofs.Composites
import TreeProtocol.Proofs.Walks.Reporting
import TreeProtocol.Proofs.Admission
import TreeProtocol.Proofs.Attachments
import TreeProtocol.Proofs.Arena.Ledgers
import TreeProtocol.Proofs.Walks.Agents
import TreeProtocol.Proofs.Walks.Errors
import TreeProtocol.Proofs.Arena.Grounding
import TreeProtocol.Proofs.Arena.Producers
import TreeProtocol.Proofs.Walks.Depth
import TreeProtocol.Proofs.Arena.Permanence
import TreeProtocol.Proofs.Matching
import TreeProtocol.Proofs.Programs
import TreeProtocol.Proofs.Layers
import TreeProtocol.Proofs.Walks.Turns
import TreeProtocol.Proofs.Walks.Cuts
import TreeProtocol.Proofs.Walks.Settling
import TreeProtocol.Proofs.Walks.Stopping
import TreeProtocol.Proofs.Walks.Projection
import TreeProtocol.Proofs.Walks.Scopes
import TreeProtocol.Proofs.Walks.Names
import TreeProtocol.Proofs.Walks.Rounds
import TreeProtocol.Proofs.Walks.Tallies
import TreeProtocol.Proofs.Arena.Handles
import TreeProtocol.Proofs.Cardinality
import TreeProtocol.Proofs.Schema.Documents
import TreeProtocol.Proofs.Construction.Script
import TreeProtocol.Proofs.Construction.Joint
import TreeProtocol.Proofs.Construction.Acceptance
import TreeProtocol.Proofs.Lookups
import TreeProtocol.Proofs.Arena.Outcomes
import TreeProtocol.Proofs.Relating
import TreeProtocol.Proofs.Arena.Refusals
import TreeProtocol.Proofs.Arena.Independence
import TreeProtocol.Proofs.Keys
import TreeProtocol.Proofs.Orders
import TreeProtocol.Proofs.Schema.Checks
import TreeProtocol.Proofs.Arena.Violations
import TreeProtocol.Proofs.Construction.Allocation
import TreeProtocol.Proofs.Construction.Collecting
import TreeProtocol.Proofs.Construction.KeyedPlans
import TreeProtocol.Proofs.Values
import TreeProtocol.Proofs.Json.Values
