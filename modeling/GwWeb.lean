import GwWeb.StreamDecoding
import GwWeb.LoopRules
import GwWeb.TransitionRuns
import GwWeb.PositionalNumerals
import GwWeb.BinaryFloat
import GwWeb.BoundedArrays
import GwWeb.ByteMemory
import GwWeb.FirstMatch
import GwWeb.MirroredRoster
import GwWeb.CountedService
import GwWeb.Subscription
import GwWeb.DrainedQueue
import GwWeb.EdgeTriggered
import GwWeb.EdgeQuiescence
import GwWeb.QueueLifecycle
import GwWeb.RoutedReplies
import GwWeb.LinkedCells
import GwWeb.WebCommon
import GwWeb.WriteIsolation
import GwWeb.WriteOperations
import GwWeb.Server
import GwWeb.MosquittoBroker
import GwWeb.DmaHandler
import GwWeb.EventProcess
import GwWeb.UserBook
import GwWeb.BookInvariants
import GwWeb.BookRefinement
import GwWeb.BookRuns
import GwWeb.UserAccounting
import GwWeb.RssiSubscriptions
import GwWeb.DmaMode
import GwWeb.DeviceStart
import GwWeb.UnlinkRelease
import GwWeb.SaveNodes
import GwWeb.SaveIsolation
import GwWeb.FlaggedNodes
import GwWeb.WriteSlots
import GwWeb.WriteThreads
import GwWeb.NodeFrames
import GwWeb.SlottedNodes
import GwWeb.SlotRuns
import GwWeb.SaveDesks
import GwWeb.SaveFlags
import GwWeb.DeferredDeletion
import GwWeb.Receive
import GwWeb.ReceiveTermination
import GwWeb.ReceiveDeframing
import GwWeb.ReceiveBounds
import GwWeb.SessionRoster
import GwWeb.RfAnswers
import GwWeb.SystemState
import GwWeb.SessionThreads
import GwWeb.SessionTeardown
import GwWeb.SessionPointers
import GwWeb.EpollBatches
import GwWeb.EventFdHandover
import GwWeb.HeldSessions
import GwWeb.LinkFlapping
import GwWeb.FrameDispatch
import GwWeb.TextReading
import GwWeb.JsonScanner
import GwWeb.RequestParsing
import GwWeb.NumeralParsing
import GwWeb.SteadySlots
import GwWeb.RequestFields
import GwWeb.FpgaVersion
import GwWeb.ZynqTemper
import GwWeb.FrameSending
import GwWeb.BlockOwnership
import GwWeb.PayloadOwnership
import GwWeb.TinyQueue
import GwWeb.QueueOrder
import GwWeb.QueueDestruction
import GwWeb.SaveDelivery
import GwWeb.SaveTraces
import GwWeb.SavePaths
import GwWeb.SampleRecords
import GwWeb.SavedFile
import GwWeb.SampleBounds
import GwWeb.StringCopies
import GwWeb.CsiDisplay
import GwWeb.ConstellationDecoding
import GwWeb.IqDecoding
import GwWeb.BlockChaining
import GwWeb.Md5sum
import GwWeb.SineEnclosure
import GwWeb.Md5Rounds
import GwWeb.Md5Digest
import GwWeb.ConfMonitor
import GwWeb.RingLists
import GwWeb.ListHead
import GwWeb.ListRuns
import GwWeb.StoredLists
import GwWeb.EpollInput
import GwWeb.OutputMachines
import GwWeb.DisplayPages
import GwWeb.BookPages
import GwWeb.PageFrames
import GwWeb.PageRefinement
import GwWeb.BlockContents
import GwWeb.OrderedLedger
import GwWeb.QueueHolder
import GwWeb.AutoLog
import GwWeb.LogLedger
import GwWeb.LogDrain
import GwWeb.AlarmReports
import GwWeb.RequestAnswers
import GwWeb.SequentialReads
import GwWeb.RfSettings
import GwWeb.Heartbeat
