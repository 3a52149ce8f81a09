import KnotLink.Python.Text
import KnotLink.Python.Stream
/-!
# Python `OpenSocketQuerier` (OpenSocketQuerier.py)

`QueryState` holds the fields the caller's and the receive thread share, with the critical sections of
`_state_lock` as functions on it. They are generic in the type of messages: none of them looks at a text.
The querier itself is written for one caller: `query` begins, sends, waits and ends, and the chunks of its
connection arrive before the wait or during it. `QuerierThreads.lean` runs the same sections from any number
of threads.
-/
namespace KnotLink.Python
open Lib

structure QueryState (τ : Type) where
  queryResult : Option τ
  queryEvent : Bool
  isQuerying : Bool
  timeoutOccurred : Bool
  deriving DecidableEq, Repr

namespace QueryState
variable {τ : Type}

/-- `__init__` (OpenSocketQuerier.py:15-19). -/
def init : QueryState τ := ⟨none, false, false, false⟩

/-- The first critical section of `query` (OpenSocketQuerier.py:38-42). -/
def begin (s : QueryState τ) : QueryState τ :=
  { s with queryResult := none, queryEvent := false, isQuerying := true, timeoutOccurred := false }

/-- The second one (OpenSocketQuerier.py:45-50); nothing instead of the result is the `TimeoutError`. -/
def finish (s : QueryState τ) (success : Bool) : QueryState τ × Option (Option τ) :=
  let s := { s with isQuerying := false }
  if !success then ({ s with timeoutOccurred := true }, none)
  else (s, some s.queryResult)

/-- The one of `_internal_data_recv` (OpenSocketQuerier.py:63-68), and whether it returned there. -/
def recv (s : QueryState τ) (receivedText : τ) : QueryState τ × Bool :=
  if s.isQuerying && !s.timeoutOccurred then
    ({ s with queryResult := some receivedText, queryEvent := true }, true)
  else (s, false)

/-- The one of `disconnect` (OpenSocketQuerier.py:85-88). -/
def disconnect (s : QueryState τ) : QueryState τ := { s with timeoutOccurred := true, queryEvent := true }

end QueryState

/-- What `query` raises. -/
inductive QueryError where
  | timeout
  | unicodeEncode
  | value (e : TcpClient.ValueError)
  deriving DecidableEq, Repr

/-- How a call of `query` ends; one without timeout may also stay blocked. -/
inductive QueryOutcome where
  | returned (result : Option PyStr)
  | raised (e : QueryError)
  | blocked
  deriving DecidableEq, Repr

/-- `s_data` of `_query` (OpenSocketQuerier.py:55-58) for a question that `query` has encoded before. -/
def queryMessage (APPID OpenSocketID : Option PyStr) (data : PyStr) : Except QueryError Bytes :=
  match encodeUtf8 data with
  | none => .error .unicodeEncode
  | some data =>
    match encodeUtf8 (format APPID ++ str "-" ++ format OpenSocketID ++ str "&*&") with
    | none => .error .unicodeEncode
    | some sKeyBytes => .ok (sKeyBytes ++ data)

/-- `_query(self.appID, self.openSocketID, data.encode("utf-8"))` on the querier's client. -/
def sendQuery (APPID OpenSocketID : Option PyStr) (c : TcpClient) (data : PyStr) (net : TcpClient.SendAll) :
    TcpClient × Except QueryError Unit :=
  match queryMessage APPID OpenSocketID data with
  | .error e => (c, .error e)
  | .ok sData =>
    match c.sendData sData net with
    | (c, .error e) => (c, .error (.value e))
    | (c, .ok ()) => (c, .ok ())

structure OpenSocketQuerier where
  appID : Option PyStr
  openSocketID : Option PyStr
  KLquerier : TcpClient
  shared : QueryState PyStr
  /-- Whether `set_RecvFunc` has set a callback. -/
  callback : Bool
  /-- The arguments of the callback, in call order. -/
  callbacks : List PyStr
  deriving DecidableEq, Repr

namespace OpenSocketQuerier

/-- `_internal_data_recv` (OpenSocketQuerier.py:61). -/
def internalDataRecv (s : OpenSocketQuerier) (data : Bytes) : OpenSocketQuerier :=
  let receivedText := decodeUtf8Replace data
  match s.shared.recv receivedText with
  | (shared, true) => { s with shared }
  | (_, false) => if s.callback then { s with callbacks := s.callbacks ++ [receivedText] } else s

/-- The receive thread on some chunks. `_internal_data_recv` is its callback: it returns normally and
leaves the client alone, so it may run after the parser. -/
def receive (s : OpenSocketQuerier) (chunks : List Bytes) : OpenSocketQuerier :=
  let c := s.KLquerier.receiveChunks (some quiet) chunks
  (c.received.drop s.KLquerier.received.length).foldl internalDataRecv { s with KLquerier := c }

/-- The second critical section of `query` and its end. -/
def finish (s : OpenSocketQuerier) (success : Bool) : OpenSocketQuerier × QueryOutcome :=
  match s.shared.finish success with
  | (shared, some result) => ({ s with shared }, .returned result)
  | (shared, none) => ({ s with shared }, .raised .timeout)

/-- `query` (OpenSocketQuerier.py:31): the `early` chunks are read before it waits, the `late` ones while
it does and its timeout, if any, has not run out. -/
def query (s : OpenSocketQuerier) (data : PyStr) (timed : Bool) (net : TcpClient.SendAll)
    (early late : List Bytes) : OpenSocketQuerier × QueryOutcome :=
  let s := { s with shared := s.shared.begin }
  match sendQuery s.appID s.openSocketID s.KLquerier data net with
  | (c, .error e) => ({ s with KLquerier := c }, .raised e)
  | (c, .ok ()) =>
    let s := receive { s with KLquerier := c } early
    if s.shared.queryEvent then s.finish true
    else
      let s := s.receive late
      if s.shared.queryEvent then s.finish true
      else if timed then s.finish false
      else (s, .blocked)

theorem receive_eq {s : OpenSocketQuerier} {chunks ms : List Bytes}
    (h : (s.KLquerier.receiveChunks (some quiet) chunks).received = s.KLquerier.received ++ ms) :
    s.receive chunks = ms.foldl internalDataRecv
      { s with KLquerier := s.KLquerier.receiveChunks (some quiet) chunks } := by
  rw [receive, h, List.drop_left]

end OpenSocketQuerier
end KnotLink.Python
