import DualStore.Calendar.Timestamp
import DualStore.Catalog
import DualStore.Catalog.Tables
import DualStore.Criteria.Outline
import DualStore.Criteria.Script
import DualStore.Decimal.Fixed
import DualStore.Files.Tree
import DualStore.Main
import DualStore.Workspace
import DualStore.Proofs.AcceptedPipelines
import DualStore.Proofs.FlushedOutboxes
import DualStore.Proofs.PagedReads
import DualStore.Proofs.SameEntities
import DualStore.Proofs.SavedRows
import DualStore.Proofs.SessionRuns
import DualStore.Proofs.StoreMaps
import DualStore.Proofs.AlikeStatements
import DualStore.Proofs.UpdatedRows
import DualStore.Proofs.SavedEntities
import DualStore.Proofs.DrawnIdentities
import DualStore.Proofs.ConcurrentSaves
import DualStore.Proofs.CachedReads
import DualStore.Proofs.ReplicatedTables
import DualStore.Proofs.ProjectedReads
import DualStore.Proofs.RefusedConditions
import DualStore.Proofs.SearchedValues
import DualStore.Proofs.ReadableColumns
import DualStore.Proofs.DateColumns
import DualStore.Proofs.DateRows
import DualStore.Proofs.BulkWrites
import DualStore.Proofs.FailedWrites
import DualStore.Proofs.EqualityOperands
import DualStore.Proofs.SortedReads
import DualStore.Proofs.GroupedRows
import DualStore.Proofs.MatchedGroups
import DualStore.Proofs.SummedFields
import DualStore.Proofs.StatementColumns
import DualStore.Proofs.NamedIdentities
import DualStore.Proofs.CacheDeadlines
import DualStore.Proofs.DecodedColumns
import DualStore.Proofs.ListedFiles
import DualStore.Proofs.UpdatePairs
import DualStore.Proofs.ExtremeValues
