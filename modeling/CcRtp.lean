import CcRtp.Octets
import CcRtp.AlongRun
import CcRtp.KeyStream
import CcRtp.ReplayWindow
import CcRtp.SymCrypto
import CcRtp.CounterMode
import CcRtp.F8Mode
import CcRtp.CryptoBackends
import CcRtp.CryptoContext
import CcRtp.IndexGuessing
import CcRtp.ReplayProtection
import CcRtp.RtpPacket
import CcRtp.Srtp
import CcRtp.SrtpStream
import CcRtp.CryptoContextCtrl
import CcRtp.Srtcp
import CcRtp.ClonePool
import CcRtp.NameRegistry
import CcRtp.TimeArithmetic
import CcRtp.KeyDerivation
import CcRtp.InitialVectors
import CcRtp.OutgoingQueue
import CcRtp.KeyStreamReuse
import CcRtp.RtcpCompound
import CcRtp.IncomingContexts
import CcRtp.LinkedList
import CcRtp.Membership
import CcRtp.MembershipTable
import CcRtp.MembershipCalls
import CcRtp.MembersCount
import CcRtp.ReverseReconsideration
import CcRtp.MicrosecondConversions
import CcRtp.ReceptionCheck
import CcRtp.SendingQueue
import CcRtp.SchedulingDecision
import CcRtp.ClockConversions
import CcRtp.PartialUpdate
import CcRtp.WhileLoop
import CcRtp.RtcpReception
import CcRtp.RtcpTermination
import CcRtp.RtcpWalk
import CcRtp.RtcpGoodbye
import CcRtp.RtcpDescriptions
import CcRtp.ParticipantNames
import CcRtp.RtcpReports
import CcRtp.RtcpBackOff
import CcRtp.RtcpSenderReports
import CcRtp.RtcpReceiverReports
import CcRtp.RtcpBounds
import CcRtp.RtcpSending
import CcRtp.RtcpBlocks
import CcRtp.ReportFields
import CcRtp.RtcpSize
import CcRtp.RtcpLeaving
import CcRtp.SrtcpBounds
import CcRtp.RtcpAgreement
import CcRtp.ImmediateSending
import CcRtp.Segmentation
import CcRtp.SourceCollisions
import CcRtp.ConflictLookup
import CcRtp.SenderStatistics
import CcRtp.Destinations
import CcRtp.RtpCodec
import CcRtp.DataReception
import CcRtp.ReceptionQueue
import CcRtp.SourceQueues
import CcRtp.ReceptionLists
import CcRtp.ReceptionQueries
import CcRtp.ReceptionRuns
import CcRtp.DuplicatePackets
import CcRtp.InOrderDelivery
import CcRtp.WaitingQueries
import CcRtp.SourceQueries
import CcRtp.SourceRemoval
import CcRtp.SequenceTracking
import CcRtp.ReceptionStatistics
import CcRtp.SourceValidation
import CcRtp.SessionPool
import CcRtp.PoolService
import CcRtp.BinaryResidues
import CcRtp.FeistelNetwork
import CcRtp.Twofish
import CcRtp.TwofishKeys
import CcRtp.BlockStream
import CcRtp.LittleEndian
import CcRtp.SkeinBlock
import CcRtp.Skein
import CcRtp.SkeinMac
import CcRtp.Md5Digest
