import TokenCake.Request.Isolation
import TokenCake.KVCache.MaskedHits
import TokenCake.Scheduling.GrowthCommitments
import TokenCake.Offload.LifecycleRuns
import TokenCake.Offload.Preservation
import TokenCake.Decoding.Incremental
import TokenCake.Decoding.WholeChunks
import TokenCake.Scheduler.FailedLoads
import TokenCake.Serving.ParallelSampling
import TokenCake.Scheduler.Examined
import TokenCake.Offload.Benefit
import TokenCake.Scheduling.Executed
import TokenCake.Offload.AdaptiveReplacement
import TokenCake.Scheduler.CandidateOrder
import TokenCake.Experts.Replication
import TokenCake.Reasoning.Delimited
import TokenCake.Scheduling.Charging
import TokenCake.Attention.Reorder
import TokenCake.Offload.CpuPool
import TokenCake.Encoder.Accounting
import TokenCake.Serving.Detokenizer
