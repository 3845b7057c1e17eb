import YatCasched.Lib.Run
import YatCasched.Lib.CircularList
import YatCasched.Lib.QueueFamily
import YatCasched.Lib.MachineInt
import YatCasched.Kernel.State
import YatCasched.Kernel.Hooks
import YatCasched.Kernel.Queues
import YatCasched.Kernel.Dispatch
import YatCasched.Kernel.Operations
import YatCasched.Kernel.RunQueueInvariant
import YatCasched.Kernel.LastCpu
import YatCasched.Kernel.Rotation
import YatCasched.Kernel.PickNext
import YatCasched.Kernel.Affinity
import YatCasched.Kernel.AffinityEffect
import YatCasched.Kernel.AffinityChange
import YatCasched.Kernel.PolicyClass
import YatCasched.Lib.FirstBest
import YatCasched.Simu.CacheAware
import YatCasched.Simu.Allocate
import YatCasched.Simu.Score
import YatCasched.Simu.Ledger
import YatCasched.Simu.ArgMax
import YatCasched.Simu.Imbalance
import YatCasched.Lib.Transducer
import YatCasched.Simu.Wfd
import YatCasched.Simu.Experiment
import YatCasched.Simu.Independence
import YatCasched.Simu.Schedule
import YatCasched.Simu.ExecutionTime
import YatCasched.Lib.ListScheduling
import YatCasched.Simu.ListSchedule
import YatCasched.Lib.Ratio
import YatCasched.Simu.HitStats
import YatCasched.Simu.HitAgreement
import YatCasched.Kernel.Preemption
import YatCasched.Kernel.CpuHistory
import YatCasched.Lib.Meter
import YatCasched.Kernel.Vruntime
import YatCasched.Kernel.TimeSlice
import YatCasched.Kernel.Fallback
import YatCasched.Kernel.CpuChoice
import YatCasched.Kernel.CacheHeat
import YatCasched.Simu.WfdTally
import YatCasched.Simu.TimeReduction
import YatCasched.Simu.TimeMetrics
import YatCasched.Lib.Dispersion
import YatCasched.Simu.LoadBalance
import YatCasched.Simu.WfdOrder
import YatCasched.Simu.Frame
import YatCasched.Lib.Throwing
import YatCasched.Simu.Atomicity
import YatCasched.Simu.ResponseTime
import YatCasched.Simu.Deadlines
import YatCasched.Lib.Blocks
import YatCasched.Simu.CacheHierarchy
import YatCasched.Lib.Shares
import YatCasched.Simu.UUnifast
import YatCasched.Simu.FallbackUtilizations
import YatCasched.Simu.TaskSet
import YatCasched.Lib.Trace
import YatCasched.Lib.QueueLife
import YatCasched.Kernel.Wakeup
import YatCasched.Kernel.LifeCycle
import YatCasched.Kernel.CoreSteps
import YatCasched.Kernel.CoreRuns
import YatCasched.Kernel.TaskFrame
import YatCasched.Kernel.NoLostWakeup
import YatCasched.Kernel.Placement
import YatCasched.Kernel.QueueOrder
import YatCasched.Kernel.UnusedClass
import YatCasched.Kernel.Starvation
import YatCasched.Kernel.Pinning
import YatCasched.Simu.CacheIntensive
import YatCasched.Simu.Analysis
import YatCasched.Simu.CacheAwareRun
import YatCasched.Simu.WfdCarry
import YatCasched.Simu.TestCase
import YatCasched.Simu.Comparison
import YatCasched.Simu.CacheAwareV1
