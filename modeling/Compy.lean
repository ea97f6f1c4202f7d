import Compy.Library.BigEndian
import Compy.Library.CheckedBytes
import Compy.Library.BitFields
import Compy.Library.Fragmentation
import Compy.Library.KeyedLog
import Compy.Library.ReplayWindow
import Compy.Library.ExtendedIndex
import Compy.Library.AttemptLog
import Compy.Library.IncrementalParsing
import Compy.Library.Searching
import Compy.Library.Delimited
import Compy.Library.ParserBounds
import Compy.Library.Settling
import Compy.Library.MutualExclusion
import Compy.Library.Interaction
import Compy.Library.StreamParsing
import Compy.Library.ConstantTime
import Compy.Library.Framing
import Compy.Library.BlockStream
import Compy.Library.Base64
import Compy.Library.Aes128
import Compy.Library.HmacSha1
import Compy.Rtp.Header
import Compy.Rtp.Transport
import Compy.Rtp.Payloads
import Compy.Rtp.Deserialize
import Compy.Rtp.RoundTrip
import Compy.Rtp.Receiver
import Compy.Rtp.Padding
import Compy.Srtp.Crypto
import Compy.Srtp.Base64
import Compy.Srtp.CryptoAttr
import Compy.Srtp.Transport
import Compy.Srtp.Receive
import Compy.Srtp.ReceiveSpec
import Compy.Srtp.ReplayRuns
import Compy.Srtp.ReceiveEffects
import Compy.Srtp.Unprotect
import Compy.Srtp.SenderPacket
import Compy.Srtp.SenderRuns
import Compy.Srtp.KeystreamUse
import Compy.Srtp.Receiver
import Compy.Srtp.Delivery
import Compy.Srtp.RtcpDelivery
import Compy.Srtp.TransmitEffects
import Compy.Reports.SenderReport
import Compy.Reports.Session
import Compy.Reports.Deserialize
import Compy.Reports.Compound
import Compy.Reports.Incoming
import Compy.Reports.Clocks
import Compy.Reports.Uninitialised
import Compy.Rtsp.Parsing
import Compy.Rtsp.Scan
import Compy.Rtsp.Types
import Compy.Rtsp.Deciding
import Compy.Rtsp.Message
import Compy.Rtsp.Grammar
import Compy.Rtsp.Incremental
import Compy.Rtsp.Serialize
import Compy.Rtsp.RoundTrip
import Compy.Rtsp.Bounds
import Compy.Rtsp.Interleaving
import Compy.Rtsp.Sdp
import Compy.Rtsp.WriteErrors
import Compy.Rtsp.WriterCalls
import Compy.Rtsp.HeaderCase
import Compy.Rtsp.HeaderFields
import Compy.Rtsp.DeadEnds
import Compy.Rtsp.TransportHeader
import Compy.Rtsp.Numbers
import Compy.Rtsp.TransportParams
import Compy.Nal.Header
import Compy.Nal.Transport
import Compy.Nal.Depacketise
import Compy.Nal.Limits
import Compy.Nal.OverSrtp
import Compy.Library.Grouping
import Compy.Nal.AnnexB
import Compy.Nal.Stream
import Compy.Rtp.Playing
import Compy.Rtp.AudioPlayer
import Compy.Nal.Player
import Compy.Connection.Playback
import Compy.Jpeg.Frame
import Compy.Jpeg.SegmentData
import Compy.Jpeg.Segments
import Compy.Jpeg.Transport
import Compy.Jpeg.Reassembly
import Compy.Jpeg.Tables
import Compy.Jpeg.Geometry
import Compy.Tcp.Transport
import Compy.Tcp.FdWriter
import Compy.Tls.Conn
import Compy.Tls.DeadConn
import Compy.Tls.Writer
import Compy.Rtsp.Context
import Compy.Rtsp.Unsupported
import Compy.DigestAuth.Md5
import Compy.DigestAuth.Md5Stream
import Compy.DigestAuth.Digest
import Compy.DigestAuth.Check
import Compy.DigestAuth.Answers
import Compy.DigestAuth.Soundness
import Compy.DigestAuth.Clients
import Compy.Connection.Demultiplex
import Compy.Connection.Dispatch
import Compy.Connection.Threads
import Compy.Connection.EventLoop
import Compy.Udp.Transport
import Compy.Connection.BevWriter
import Compy.Connection.Login
import Compy.Connection.Client
import Compy.Connection.Lifetimes
import Compy.Connection.Closing
import Compy.Connection.Requests
import Compy.Connection.Sessions
import Compy.Connection.Multiplexing
