import SymbolAtlas.Session
import SymbolAtlas.Settings.Layers
import SymbolAtlas.Store.Opening
import SymbolAtlas.Proofs.Outcome
import SymbolAtlas.Proofs.Change
import SymbolAtlas.Proofs.Stage
import SymbolAtlas.Proofs.Atomicity
import SymbolAtlas.Proofs.Scope
import SymbolAtlas.Proofs.Derived
import SymbolAtlas.Proofs.Removed
import SymbolAtlas.Proofs.Grounded
import SymbolAtlas.Proofs.Reachable
import SymbolAtlas.Proofs.Portion
import SymbolAtlas.Proofs.Isolation
import SymbolAtlas.Proofs.Reading
import SymbolAtlas.Proofs.Mirror
import SymbolAtlas.Proofs.Connections
import SymbolAtlas.Proofs.Navigation
import SymbolAtlas.Proofs.Catalog
import SymbolAtlas.Proofs.History
import SymbolAtlas.Proofs.Freshness
import SymbolAtlas.Proofs.Undo
import SymbolAtlas.Proofs.Lockstep
import SymbolAtlas.Proofs.Skipped
import SymbolAtlas.Proofs.Roles
import SymbolAtlas.Proofs.Coverage
import SymbolAtlas.Proofs.Indifference
import SymbolAtlas.Proofs.Reordering
import SymbolAtlas.Proofs.Links
import SymbolAtlas.Proofs.Clean
import SymbolAtlas.Proofs.Views
import SymbolAtlas.Proofs.Retired
import SymbolAtlas.Proofs.RenamedStore
import SymbolAtlas.Proofs.RenamedDump
import SymbolAtlas.Proofs.Noise
import SymbolAtlas.Proofs.Naming
import SymbolAtlas.Proofs.Deletion
import SymbolAtlas.Proofs.Denotation
import SymbolAtlas.Proofs.Migration
import SymbolAtlas.Proofs.Creation
import SymbolAtlas.Proofs.Subjects
import SymbolAtlas.Proofs.Upgrading
import SymbolAtlas.Proofs.Written
import SymbolAtlas.Proofs.Decoding
import SymbolAtlas.Proofs.Ledger
import SymbolAtlas.Proofs.Recall
import SymbolAtlas.Proofs.Declared
import SymbolAtlas.Proofs.Placement
import SymbolAtlas.Proofs.Columns
import SymbolAtlas.Proofs.Routing
import SymbolAtlas.Proofs.Joined
import SymbolAtlas.Proofs.Innermost
import SymbolAtlas.Proofs.Balance
import SymbolAtlas.Proofs.Excerpt
import SymbolAtlas.Proofs.Stretches
import SymbolAtlas.Proofs.Beginnings
import SymbolAtlas.Proofs.Sections
import SymbolAtlas.Proofs.Fitting
import SymbolAtlas.Proofs.Valid
import SymbolAtlas.Proofs.Layering
import SymbolAtlas.Proofs.Spelling
import SymbolAtlas.Proofs.Passages
import SymbolAtlas.Proofs.MapAccuracy
