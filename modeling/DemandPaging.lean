import DemandPaging.Binding
import DemandPaging.Proofs.RangeSet
import DemandPaging.Proofs.QueueHistory
import DemandPaging.Proofs.Bookkeeping
import DemandPaging.Proofs.Endings
import DemandPaging.Proofs.PlainMemory
import DemandPaging.Proofs.Outcomes
import DemandPaging.Proofs.Lifecycle
import DemandPaging.Proofs.Acceptance
import DemandPaging.Proofs.ChunkRanges
import DemandPaging.Proofs.EvictionOrder
import DemandPaging.Proofs.FillHistory
import DemandPaging.Proofs.SwapHistory
import DemandPaging.Proofs.OldRecords
import DemandPaging.Proofs.Resetting
import DemandPaging.Proofs.RangeGrowth
import DemandPaging.Proofs.ActionLogs
import DemandPaging.Proofs.FailedFaults
import DemandPaging.Proofs.SavedTotals
import DemandPaging.Proofs.Tallies
import DemandPaging.Proofs.LateRequests
import DemandPaging.Proofs.Aftermath
import DemandPaging.Proofs.RetiredRecords
