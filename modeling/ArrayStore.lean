import ArrayStore.Attribute
import ArrayStore.Config.Document
import ArrayStore.Config.Load
import ArrayStore.Container
import ArrayStore.DataSet.Run
import ArrayStore.Log.Filter
import ArrayStore.Units
import ArrayStore.Proofs.Text.Utf8
import ArrayStore.Proofs.Attribute
import ArrayStore.Proofs.Units
import ArrayStore.Proofs.ListLiteral.Reader
import ArrayStore.Proofs.ListLiteral.Grammar
import ArrayStore.Proofs.ListLiteral.Parts
import ArrayStore.Proofs.ListLiteral.Items
import ArrayStore.Proofs.ListLiteral.Unambiguous
import ArrayStore.Proofs.ListLiteral.Acceptance
import ArrayStore.Proofs.ListLiteral.RoundTrip
import ArrayStore.Proofs.DataArray.Pieces
import ArrayStore.Proofs.DataArray.Refinement
import ArrayStore.Proofs.DataArray.StoredUnits
import ArrayStore.Proofs.DataSet.Coherence
import ArrayStore.Proofs.DataSet.Linking
import ArrayStore.Proofs.DataSet.Assembly
import ArrayStore.Proofs.Keyed
import ArrayStore.Proofs.Text.Order
import ArrayStore.Proofs.Snapshot.Recording
import ArrayStore.Proofs.DataArray.Measured
import ArrayStore.Proofs.DataSet.Permanence
import ArrayStore.Proofs.DataSet.Refusals
import ArrayStore.Proofs.DataSet.Resolution
import ArrayStore.Proofs.DataSet.Relinking
import ArrayStore.Proofs.Snapshot.Building
import ArrayStore.Proofs.Config.Fields
import ArrayStore.Proofs.Config.Merging
import ArrayStore.Proofs.Config.Names
import ArrayStore.Proofs.Config.Overrides
import ArrayStore.Proofs.Config.Precedence
import ArrayStore.Proofs.ListLiteral.Nested
import ArrayStore.Proofs.Snapshot.Document
import ArrayStore.Proofs.Json.RoundTrip
import ArrayStore.Proofs.FileTree
import ArrayStore.Proofs.Container.Naming
import ArrayStore.Proofs.Container.Placement
import ArrayStore.Proofs.Container.Reopening
import ArrayStore.Proofs.Json.Equality
import ArrayStore.Proofs.Snapshot.Equality
import ArrayStore.Proofs.DataSet.Acyclic
import ArrayStore.Proofs.DataSet.Foreign
import ArrayStore.Proofs.ListLiteral.Controls
import ArrayStore.Proofs.Config.Literals
import ArrayStore.Proofs.Config.Sections
import ArrayStore.Proofs.Config.BaseLocation
import ArrayStore.Proofs.DataArray.FirstNaN
import ArrayStore.Proofs.DataArray.RowOverflow
import ArrayStore.Proofs.DataArray.BuildOrder
import ArrayStore.Proofs.Storage.Acceptance
import ArrayStore.Proofs.Storage.Archives
import ArrayStore.Proofs.Storage.SingleTable
import ArrayStore.Proofs.Config.Documents
import ArrayStore.Proofs.Log.Directives
import ArrayStore.Proofs.Log.Filters
import ArrayStore.Proofs.Text.Patterns
