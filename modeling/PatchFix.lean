import PatchFix.Library.DependencyGraph
import PatchFix.Library.PartialFold
import PatchFix.Library.TransitionRun
import PatchFix.Library.LineText
import PatchFix.TopoSort
import PatchFix.CrashJournal
import PatchFix.HookList
import PatchFix.Registry
import PatchFix.RegistryCascade
import PatchFix.Rogue.AllHooks
import PatchFix.RegistryInstall
import PatchFix.RegistryReload
import PatchFix.ReloadHistory
import PatchFix.Session
import PatchFix.Library.ByteImage
import PatchFix.Library.SortedSearch
import PatchFix.Library.LowerBound
import PatchFix.PatchRegistry
import PatchFix.PatchVector
import PatchFix.PatchLookup
import PatchFix.PatchNearby
import PatchFix.MemWrite
import PatchFix.PatchOriginals
import PatchFix.PatchFrame
import PatchFix.MakeHook
import PatchFix.Rogue.GameState
import PatchFix.Rogue.Language
import PatchFix.Rogue.LanguageUnlock
import PatchFix.Rogue.LanguageUnlockGameId
import PatchFix.Rogue.LanguageUnlockRuntime
import PatchFix.ChangeRecords
import PatchFix.FileWatcher
import PatchFix.CrashHandler
import PatchFix.CrashDispatch
import PatchFix.ForeignFaults
import PatchFix.InstallOrder
import PatchFix.ReloadStores
import PatchFix.Syndicate.AllHooks
import PatchFix.IntegrityBypass
import PatchFix.GameInit
import PatchFix.Library.Rounding
import PatchFix.Library.Binary32
import PatchFix.NumberText
import PatchFix.Parsers
import PatchFix.IniFallback
import PatchFix.ParserGrammar
import PatchFix.ConfigStores
import PatchFix.Rogue.Configuration
import PatchFix.Rogue.EnumSwitches
import PatchFix.Rogue.FullModeList
import PatchFix.Rogue.ModeIndexGuard
import PatchFix.Rogue.ModePublication
import PatchFix.Library.FirstOrderLag
import PatchFix.Library.WeightedWalk
import PatchFix.Rogue.MouseAxisFilter
import PatchFix.Rogue.MouseDrift
import PatchFix.Rogue.MouseSmoothing
import PatchFix.Rogue.FpsUnlock
import PatchFix.Rogue.ViewportFitting
import PatchFix.Syndicate.FpsUnlock
import PatchFix.Syndicate.ResolutionFix
import PatchFix.JournalRoundTrip
import PatchFix.JournalRace
import PatchFix.RecordChain
import PatchFix.Library.SpanAccess
import PatchFix.RecordBounds
import PatchFix.PeFile
import PatchFix.PeTranslation
import PatchFix.Library.IntervalRun
import PatchFix.TextRange
import PatchFix.PeSections
import PatchFix.Logger
import PatchFix.Library.RelativeAddress
import PatchFix.BranchTarget
import PatchFix.ThreadIntercept
import PatchFix.BypassRun
import PatchFix.DebugBreakin
import PatchFix.UniqueHandle
import PatchFix.HookAttribution
import PatchFix.WatcherShutdown
import PatchFix.TimerCalls
import PatchFix.SitePatches
import PatchFix.Syndicate.Ds4v2Fix
import PatchFix.Syndicate.CameraSmoothing
import PatchFix.Rogue.CameraLean
import PatchFix.PatternScan
import PatchFix.GameData
import PatchFix.Library.FieldText
import PatchFix.PatchReport
import PatchFix.DumpPath
import PatchFix.StackWalker
import PatchFix.CrashReport
import PatchFix.CallbackGuard
import PatchFix.Rogue.ViewportScaling
import PatchFix.Library.X64Code
import PatchFix.Library.SingleBits
import PatchFix.Library.Binary32Order
import PatchFix.Rogue.ErasedCode
import PatchFix.Rogue.DisplayDetection
import PatchFix.Syndicate.LanguageUnlock
import PatchFix.Syndicate.AspectRatioFix
