import LocalSend.ForStd.TransitionSystem
import LocalSend.ForStd.AssocMap
import LocalSend.Protocol.Types
import LocalSend.Server.System
import LocalSend.Server.DefaultReceiver
import LocalSend.Spec.HandleInvariant
import LocalSend.Spec.StepCases
import LocalSend.Spec.PrepareInvariant
import LocalSend.Spec.SlotMoves
import LocalSend.Spec.SlotOwnership
import LocalSend.Spec.WithdrawnOffer
import LocalSend.Spec.AbandonedOffer
import LocalSend.Spec.SlotAttribution
import LocalSend.Spec.LogMoves
import LocalSend.Spec.IdleReclaim
import LocalSend.Spec.UploadMoves
import LocalSend.Spec.LifecycleInvariant
import LocalSend.Spec.PublicationStability
import LocalSend.Spec.ConsentSafety
import LocalSend.Spec.UploadOutcome
import LocalSend.Spec.ProgressLedger
import LocalSend.Spec.DiskSteps
import LocalSend.Spec.VisibleFiles
import LocalSend.Spec.DropSafety
import LocalSend.Server.Protected
import LocalSend.Spec.PinAutomaton
import LocalSend.Spec.ProtectedCancel
import LocalSend.ForStd.Custody
import LocalSend.Spec.OwnerMoves
import LocalSend.Spec.LinearOwner
import LocalSend.Spec.ProtectedUploads
import LocalSend.Server.WebShare
import LocalSend.Spec.WebDisclosure
import LocalSend.Core.SinkRun
import LocalSend.Spec.CreateSteps
import LocalSend.Spec.SinkErrors
import LocalSend.Core.SinkWorld
import LocalSend.Spec.ReceiveSteps
import LocalSend.Spec.SinkSafety
import LocalSend.Spec.TreeView
import LocalSend.Spec.Containment
import LocalSend.Spec.SequentialCreates
import LocalSend.Spec.ConcurrentCreates
import LocalSend.Spec.PinTable
import LocalSend.Spec.PinSweep
import LocalSend.Spec.EventDiscipline
import LocalSend.Spec.MessageDelivery
import LocalSend.Spec.ReceiveProgress
import LocalSend.ForStd.FormUrlEncoded
import LocalSend.ForStd.IpText
import LocalSend.ForStd.Url
import LocalSend.Client.Urls
import LocalSend.Spec.QueryRoundTrip
import LocalSend.Cli.Target
import LocalSend.Spec.TargetAddressing
import LocalSend.Crypto.Tls
import LocalSend.Spec.IdentityConvergence
import LocalSend.Spec.IdentityCrash
import LocalSend.Discovery.Multicast
import LocalSend.Server.Lifecycle
import LocalSend.Spec.AnnouncedIdentity
import LocalSend.ForStd.Utf8Text
import LocalSend.Spec.CollisionNames
import LocalSend.Spec.PathGrammar
import LocalSend.Client.TrustPolicy
import LocalSend.Spec.TrustAgreement
import LocalSend.ForStd.FirstWins
import LocalSend.Tui.Popup
import LocalSend.Tui.Screens
import LocalSend.Tui.App
import LocalSend.Spec.DeviceList
import LocalSend.ForStd.BufferUnordered
import LocalSend.Discovery.Http
import LocalSend.Spec.SweepOutcome
import LocalSend.Discovery.Interfaces
import LocalSend.Spec.InterfaceSelection
import LocalSend.Tui.Run
import LocalSend.Spec.TuiConsent
import LocalSend.Spec.SendFlows
import LocalSend.Spec.PinRetry
import LocalSend.Spec.WebBooks
import LocalSend.Spec.WebStreams
import LocalSend.Spec.WebAccounting
import LocalSend.ForStd.Router
import LocalSend.Server.Routes
import LocalSend.Spec.HandoffRouting
import LocalSend.Core.File
import LocalSend.Client.Client
import LocalSend.Client.Send
import LocalSend.Transfer.Network
import LocalSend.Spec.AnswerCauses
import LocalSend.Spec.SendDelivery
import LocalSend.Spec.SendErrors
import LocalSend.Tui.Terminal
import LocalSend.Spec.ConfirmDialog
import LocalSend.Spec.ConsumerFrame
import LocalSend.Spec.TerminalSteps
import LocalSend.Spec.TerminalConsent
import LocalSend.Spec.SlotRelease
import LocalSend.Spec.OfferCourse
import LocalSend.Spec.SendCompletes
import LocalSend.ForStd.SerdeJson
import LocalSend.Protocol.Json
import LocalSend.Discovery.Wire
import LocalSend.Spec.WireFormat
import LocalSend.Discovery.Probes
import LocalSend.Spec.SweepDisclosure
import LocalSend.Spec.SweepRefinement
import LocalSend.Spec.PinSafety
import LocalSend.Spec.PinSafety
