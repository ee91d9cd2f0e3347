import ClusterLoader.ParallelPhases
import ClusterLoader.IndexerGarbage
import ClusterLoader.GatherSoundness
import ClusterLoader.MeasurementRestart
import ClusterLoader.DependencyTeardown
import ClusterLoader.SummaryFiles
import ClusterLoader.AvailabilityCycles
import ClusterLoader.ImagePreload
import ClusterLoader.EtcdMetrics
import ClusterLoader.NodeSync
import ClusterLoader.ServiceWaits
import ClusterLoader.ServiceProbes
import ClusterLoader.PodStartupWindows
import ClusterLoader.CounterStart
import ClusterLoader.APIResponsiveness
import ClusterLoader.AutomanagedNamespaces
import ClusterLoader.NetworkPerformance
import ClusterLoader.ChaosMonkey
import ClusterLoader.OOMsTracker
import ClusterLoader.StepErrors
import ClusterLoader.Profiles
import ClusterLoader.FinishedJobs
import ClusterLoader.JobLifecycle
import ClusterLoader.PodPairing
import ClusterLoader.ModuleFiles
import ClusterLoader.NamespaceRanges
import ClusterLoader.TuningSetExecution
import ClusterLoader.WaitForPods
import ClusterLoader.DaemonTolerations
import ClusterLoader.PodStartupSplit
import ClusterLoader.ScheduleTimes
import ClusterLoader.NegLatency
import ClusterLoader.GenericQuery
import ClusterLoader.ContainerRestarts
import ClusterLoader.SystemPodMetrics
import ClusterLoader.SchedulerLatency
import ClusterLoader.SchedulingThroughput
import ClusterLoader.TemplateMapping
import ClusterLoader.WorkerQueue
import ClusterLoader.Parameters
import ClusterLoader.CheckerVerdicts
import ClusterLoader.HistogramSums
import ClusterLoader.ConfigOverwrites
import ClusterLoader.PodSelection
import ClusterLoader.MultiClients
