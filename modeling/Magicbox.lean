import Magicbox.Library.Crash
import Magicbox.Library.Runs
import Magicbox.Library.Grouping
import Magicbox.Library.Sqlite
import Magicbox.Guarantees.ProtocolHistory
import Magicbox.Guarantees.FlowAtomicity
import Magicbox.Source.Worker
import Magicbox.Source.StatusChanges
import Magicbox.Source.CallRecords
import Magicbox.Guarantees.KernelShape
import Magicbox.Guarantees.ForwardingGuard
import Magicbox.Guarantees.FirstRestore
import Magicbox.Guarantees.ConfirmedIntent
import Magicbox.Guarantees.ConfirmationWindow
import Magicbox.Guarantees.JournalInvariant
import Magicbox.Guarantees.AbandonedRollback
import Magicbox.Guarantees.Atomicity
import Magicbox.Guarantees.AddressPlan
import Magicbox.Guarantees.ConfigCodec
import Magicbox.Guarantees.FrameCuts
import Magicbox.Guarantees.FrameEncoding
import Magicbox.Guarantees.CaptureAccounting
import Magicbox.Guarantees.Acknowledgement
import Magicbox.Guarantees.BreakdownTruth
import Magicbox.Guarantees.IdentityTranslation
import Magicbox.Guarantees.FlowTotals
import Magicbox.Guarantees.CaptureRequests
import Magicbox.Guarantees.ValidationErrors
import Magicbox.Guarantees.OccupiedResources
import Magicbox.Guarantees.QueueDiscipline
import Magicbox.Guarantees.CommandOutput
import Magicbox.Guarantees.MacDecoding
import Magicbox.Guarantees.SettledKernel
import Magicbox.Guarantees.RemainingTime
import Magicbox.Guarantees.DisabledControl
import Magicbox.Guarantees.SingleOwner
import Magicbox.Guarantees.CommandLine
import Magicbox.Guarantees.RecentPackets
import Magicbox.Guarantees.RunHistory
import Magicbox.Guarantees.ConnectionListing
import Magicbox.Guarantees.Authorization
import Magicbox.Guarantees.CaptureResumption
import Magicbox.Guarantees.BatchTexts
import Magicbox.Guarantees.FrameDecoding
import Magicbox.Guarantees.LiveCapture
import Magicbox.Guarantees.Recovery
import Magicbox.Guarantees.ServedCalls
import Magicbox.Guarantees.ServedCapture
