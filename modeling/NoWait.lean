import NoWait.Main
import NoWait.Proofs.Rollback
import NoWait.Proofs.Serializability
import NoWait.Proofs.RepeatedScans
import NoWait.Proofs.Granularity
import NoWait.Proofs.InStep
import NoWait.Proofs.LogHistory
import NoWait.Proofs.LogGrowth
import NoWait.Proofs.Redo
import NoWait.Proofs.Recovery
import NoWait.Proofs.LogChains
import NoWait.Proofs.Turns
import NoWait.Proofs.LogRoom
import NoWait.Proofs.StuckRollback
import NoWait.Proofs.CommittedWrites
import NoWait.Proofs.ReadLocks
import NoWait.Proofs.RangeBounds
import NoWait.Proofs.GapChecks
import NoWait.Proofs.SequentialScans
import NoWait.Proofs.Finished
import NoWait.Proofs.LogFrames
import NoWait.Proofs.HeapCalls
import NoWait.Proofs.SerialRuns
import NoWait.Proofs.LogNumbers
import NoWait.Proofs.SoleStatements
import NoWait.Proofs.SoleWorkload
import NoWait.Proofs.GrantOrder
import NoWait.Proofs.Withdrawals
import NoWait.Proofs.GapExclusion
import NoWait.Proofs.RetriedAborts
import NoWait.Proofs.LoggedChanges
import NoWait.Proofs.EndRecords
import NoWait.Proofs.Reservations
import NoWait.Proofs.CertainEnds
import NoWait.Proofs.Deliveries
import NoWait.Proofs.IndexContents
import NoWait.Proofs.BufferBounds
import NoWait.Proofs.PositionOrder
import NoWait.Proofs.FrameLengths
