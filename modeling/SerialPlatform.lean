import SerialPlatform.ScriptProtocol
import SerialPlatform.CommandBoundary
import SerialPlatform.ConsoleRuns
import SerialPlatform.ControlFencing
import SerialPlatform.DaemonConfig
import SerialPlatform.DesktopLive
import SerialPlatform.HumanHistoryReload
import SerialPlatform.JournalProgress
import SerialPlatform.JournalReaders
import SerialPlatform.JournalReopen
import SerialPlatform.LiteralMatching
import SerialPlatform.LogHealthRuns
import SerialPlatform.MonitorCounts
import SerialPlatform.OrderedMap
import SerialPlatform.RunHistory
import SerialPlatform.RunStartEffects
import SerialPlatform.ArchiveRuns
import SerialPlatform.SlotActs
import SerialPlatform.CommandSequence
import SerialPlatform.EchoRuns
import SerialPlatform.PrintedRows
import SerialPlatform.GuardedActions
import SerialPlatform.EchoDistance
import SerialPlatform.EchoFallback
import SerialPlatform.WholeEvidence
import SerialPlatform.HumanHistoryPages
import SerialPlatform.JournalStreamSearch
import SerialPlatform.JournalLedgerReaders
import SerialPlatform.LeftmostOccurrences
import SerialPlatform.MonitorIncidents
import SerialPlatform.MonitorIncidentPages
import SerialPlatform.MonitorPolling
import SerialPlatform.MonitorRegexRuns
import SerialPlatform.ScriptDepth
import SerialPlatform.BorderTable
import SerialPlatform.JournalGapCover
import SerialPlatform.MacroEcho
import SerialPlatform.MacroInput
import SerialPlatform.ConsoleWriteRuns
import SerialPlatform.SlotGate
import SerialPlatform.SlotPairs
import SerialPlatform.SlotTransmit
