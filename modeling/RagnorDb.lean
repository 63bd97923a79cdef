import RagnorDb.Catalog.DurableCatalog
import RagnorDb.Catalog.MetadataRestore
import RagnorDb.Catalog.MetadataRetry
import RagnorDb.Catalog.MetadataTopology
import RagnorDb.Common.CommandBatch
import RagnorDb.Exec.DistributedScanExact
import RagnorDb.Exec.RowSpec
import RagnorDb.MultiRaft.LogViewRun
import RagnorDb.MultiRaft.NodeWal
import RagnorDb.MultiRaft.SnapshotBoundary
import RagnorDb.Server.GcRecovery
import RagnorDb.Storage.MvccBatch
import RagnorDb.Tablet.ExactlyOnce
import RagnorDb.Tablet.FailedCommand
import RagnorDb.Tablet.LeaderRead
import RagnorDb.Tablet.SnapshotHistory
import RagnorDb.Tablet.SnapshotRestore
import RagnorDb.Tablet.StatusRecords
import RagnorDb.Txn.CommitRuns
import RagnorDb.Txn.Heartbeat
import RagnorDb.Txn.OracleRuns
import RagnorDb.Txn.PlanPartition
