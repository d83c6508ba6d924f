import HumanoidLab.Bridge.Clocks
import HumanoidLab.Bridge.Controller
import HumanoidLab.Bridge.Interleaving
import HumanoidLab.Bridge.Monitor
import HumanoidLab.Bridge.OpenLoop
import HumanoidLab.Bridge.Router
import HumanoidLab.Bridge.WarmStart
import HumanoidLab.Controllers.Dds
import HumanoidLab.Controllers.Flux
import HumanoidLab.Datasets.Fidelity
import HumanoidLab.Datasets.Tracking
import HumanoidLab.Evaluation.Datasets
import HumanoidLab.Evaluation.Runs
import HumanoidLab.FluxDex3.CommandOutput
import HumanoidLab.FluxDex3.Executor
import HumanoidLab.FluxDex3.Node
import HumanoidLab.FluxDex3.Server
import HumanoidLab.FluxDex3.System
import HumanoidLab.Lib.Correlation
import HumanoidLab.Lib.Crc
import HumanoidLab.Lib.Relay
import HumanoidLab.Simulators.Control
import HumanoidLab.Simulators.Episodes
import HumanoidLab.Simulators.Publication
import HumanoidLab.Simulators.Recorder
import HumanoidLab.Theorems.AdapterCalls
import HumanoidLab.Theorems.ArmatureResolution
import HumanoidLab.Theorems.ArtifactSwap
import HumanoidLab.Theorems.BridgeCalls
import HumanoidLab.Theorems.BridgeSteps
import HumanoidLab.Theorems.CameraEpisodes
import HumanoidLab.Theorems.CameraFrames
import HumanoidLab.Theorems.CatastrophicWindows
import HumanoidLab.Theorems.CheckpointHonesty
import HumanoidLab.Theorems.ChunkExecution
import HumanoidLab.Theorems.ClipIdentity
import HumanoidLab.Theorems.CommandFreshness
import HumanoidLab.Theorems.ControlCommands
import HumanoidLab.Theorems.ControlTick
import HumanoidLab.Theorems.ConversionRuns
import HumanoidLab.Theorems.ConverterValidator
import HumanoidLab.Theorems.CrossEpisode
import HumanoidLab.Theorems.Dex3Acceptance
import HumanoidLab.Theorems.Dex3Checksum
import HumanoidLab.Theorems.Dex3Moves
import HumanoidLab.Theorems.Dex3Observations
import HumanoidLab.Theorems.Dex3Playback
import HumanoidLab.Theorems.Dex3Provenance
import HumanoidLab.Theorems.Dex3Requests
import HumanoidLab.Theorems.Dex3Server
import HumanoidLab.Theorems.Dex3Simulator
import HumanoidLab.Theorems.DurableOutcomes
import HumanoidLab.Theorems.EffortSafety
import HumanoidLab.Theorems.EpisodeCommands
import HumanoidLab.Theorems.ErrorClearing
import HumanoidLab.Theorems.EvaluationWindows
import HumanoidLab.Theorems.FidelityPairing
import HumanoidLab.Theorems.FixedJointMerge
import HumanoidLab.Theorems.FluxClamping
import HumanoidLab.Theorems.FreeWindow
import HumanoidLab.Theorems.HeadingInvariance
import HumanoidLab.Theorems.InvalidTails
import HumanoidLab.Theorems.JointOrder
import HumanoidLab.Theorems.KeyParity
import HumanoidLab.Theorems.KinematicRows
import HumanoidLab.Theorems.LagEstimate
import HumanoidLab.Theorems.Layouts
import HumanoidLab.Theorems.LensGeometry
import HumanoidLab.Theorems.MalformedCommands
import HumanoidLab.Theorems.NearestSelection
import HumanoidLab.Theorems.ObservationLocality
import HumanoidLab.Theorems.PhysicalGuard
import HumanoidLab.Theorems.PooledStatistics
import HumanoidLab.Theorems.ProtocolRoundTrip
import HumanoidLab.Theorems.QualityGate
import HumanoidLab.Theorems.RejectedTrace
import HumanoidLab.Theorems.ReplyDecoding
import HumanoidLab.Theorems.Resampling
import HumanoidLab.Theorems.ResetDetection
import HumanoidLab.Theorems.ResetFreshness
import HumanoidLab.Theorems.ResetHandshake
import HumanoidLab.Theorems.ResetPoseHold
import HumanoidLab.Theorems.ResetRequests
import HumanoidLab.Theorems.RouterDelivery
import HumanoidLab.Theorems.RouterHandoff
import HumanoidLab.Theorems.RouterRelay
import HumanoidLab.Theorems.RowPacing
import HumanoidLab.Theorems.RowSelection
import HumanoidLab.Theorems.RunLifecycle
import HumanoidLab.Theorems.RunSteps
import HumanoidLab.Theorems.SessionLifecycle
import HumanoidLab.Theorems.SessionLock
import HumanoidLab.Theorems.SkeletonKinematics
import HumanoidLab.Theorems.SplitSoundness
import HumanoidLab.Theorems.StartAtomicity
import HumanoidLab.Theorems.StateAgreement
import HumanoidLab.Theorems.StopWins
import HumanoidLab.Theorems.StreamOrder
import HumanoidLab.Theorems.SupportBand
import HumanoidLab.Theorems.SwitchFailure
import HumanoidLab.Theorems.TokenGrid
import HumanoidLab.Theorems.TrainingMask
import HumanoidLab.Theorems.TrainingWindows
import HumanoidLab.Theorems.WarmStartOrigin
import HumanoidLab.Theorems.WarmStartSchedule
