import KlyroDB.AbortedWrites
import KlyroDB.BufferPoolFailures
import KlyroDB.BufferPoolInterleaving
import KlyroDB.CatalogConsistency
import KlyroDB.CatalogFailures
import KlyroDB.CheckpointRecovery
import KlyroDB.ClockVictims
import KlyroDB.CollectionRoundTrip
import KlyroDB.CompensationRecords
import KlyroDB.ConnectionClosing
import KlyroDB.DatabaseLifetimes
import KlyroDB.DecimalProducts
import KlyroDB.HeapRestart
import KlyroDB.JsonText
import KlyroDB.KeyOrder
import KlyroDB.KeyRoundTrip
import KlyroDB.LeafChains
import KlyroDB.LockStrength
import KlyroDB.LogChains
import KlyroDB.LogReader
import KlyroDB.QueryMemory
import KlyroDB.RecordRoundTrip
import KlyroDB.SegmentFiles
import KlyroDB.SessionReset
import KlyroDB.SnapshotInterleaving
import KlyroDB.SqlInputs
import KlyroDB.UpdatedRows
import KlyroDB.WaitForCycles
import KlyroDB.WalInterleaving
import KlyroDB.WalLifetimes
import KlyroDB.WorkerPool
import KlyroDB.WriteAheadRule
