import KnotLink.Agreement
import KnotLink.Connections
import KnotLink.KeyValueRoundTrip
import KnotLink.QueryResults
import KnotLink.Responsers
import KnotLink.SlotResponses
import KnotLink.CSharp.Segmentation
import KnotLink.Python.RequestResponse
import KnotLink.Python.QuerierAnswers
import KnotLink.Python.QuerierMessages
import KnotLink.Python.Writers
import KnotLink.Python.ResponserReplies
import KnotLink.Python.DeadConnection
import KnotLink.CSharp.SendFrames
import KnotLink.CSharp.QuerierAnswers
import KnotLink.Cpp.QuerierAnswers
import KnotLink.Js.Querier
import KnotLink.Cpp.SendFrames
import KnotLink.OutgoingMessages
import KnotLink.Rust.Multiplex
import KnotLink.Java.QuerierWaiters
import KnotLink.Js.QuerierWaiters
import KnotLink.ListenerFailures
import KnotLink.CSharp.Dispose
import KnotLink.Java.Reconnect
import KnotLink.Cpp.WaitsEnd
import KnotLink.KeyValueAgreement
import KnotLink.ReplyRouting
import KnotLink.Python.Channels
import KnotLink.Python.Callbacks
import KnotLink.SilentDisconnect
import KnotLink.Python.ReceiveThread
import KnotLink.Python.QuerierRestored
import KnotLink.Python.RealAnswers
import KnotLink.Python.HeartBeat
import KnotLink.Cpp.AnswerStore
import KnotLink.SentFrames
import KnotLink.BinaryReplies
import KnotLink.Java.Writers
import KnotLink.Signals
import KnotLink.Requests
import KnotLink.Js.Events
import KnotLink.NestedAnswers
import KnotLink.CSharp.Silence
import KnotLink.KeyValueRelay
import KnotLink.Python.ResponserEnd
import KnotLink.Python.ReceivedMessages
import KnotLink.Rust.Endpoint
import KnotLink.Rust.QuerierEnd
