import KnotLink.Python.Text
import KnotLink.Python.Stream
/-!
# Python `OpenSocketResponser` (OpenSocketResponser.py)

The receive thread parses a message into key and payload and queues it (`internalDataRecv`), the worker
takes one entry after another, asks the handler and sends its answer back (`processTurn`).
-/
namespace KnotLink.Python
open Lib

/-- What the user's `recv_func` does with a request. -/
inductive HandlerResult where
  | none
  | str (s : PyStr)
  /-- A value that is neither `None` nor a string: it has no `encode`. -/
  | notStr
  | raises
  deriving DecidableEq, Repr

abbrev Handler := PyStr → HandlerResult

/-- What `sendBack` raises. -/
inductive SendBackError where
  | unicodeEncode
  | value (e : TcpClient.ValueError)
  deriving DecidableEq, Repr

structure OpenSocketResponser where
  KLresponser : TcpClient
  /-- `data_queue`: payload and key of each entry. -/
  dataQueue : List (PyStr × PyStr)
  deriving DecidableEq, Repr

namespace OpenSocketResponser

/-- `sendBack` (OpenSocketResponser.py:34). -/
def sendBack (s : OpenSocketResponser) (data key : PyStr) (net : TcpClient.SendAll) :
    OpenSocketResponser × Except SendBackError Unit :=
  match encodeUtf8 (key ++ str "&*&") with
  | none => (s, .error .unicodeEncode)
  | some sKeyBytes =>
    match encodeUtf8 data with
    | none => (s, .error .unicodeEncode)
    | some data =>
      match s.KLresponser.sendData (sKeyBytes ++ data) net with
      | (c, .error e) => ({ s with KLresponser := c }, .error (.value e))
      | (c, .ok ()) => ({ s with KLresponser := c }, .ok ())

/-- `_internal_data_recv` (OpenSocketResponser.py:41). -/
def internalDataRecv (s : OpenSocketResponser) (data : Bytes) : OpenSocketResponser :=
  match indexOf? DELIMITER data with
  | none => s
  | some keyEnd =>
    match decodeUtf8 (data.take keyEnd) with
    | none => s
    | some key =>
      let payload := data.drop (keyEnd + 3)
      if payload = [] then s
      else { s with dataQueue := s.dataQueue ++ [(decodeUtf8Replace payload, key)] }

/-- The receive thread on some chunks, as for the querier. -/
def receive (s : OpenSocketResponser) (chunks : List Bytes) : OpenSocketResponser :=
  let c := s.KLresponser.receiveChunks (some quiet) chunks
  (c.received.drop s.KLresponser.received.length).foldl internalDataRecv { s with KLresponser := c }

/-- One entry taken by the worker (OpenSocketResponser.py:63-69), and whether the worker lives on:
nothing catches what the handler or `sendBack` raises. -/
def processTurn (recvFunc : Option Handler) (s : OpenSocketResponser) (net : TcpClient.SendAll) :
    OpenSocketResponser × Bool :=
  match s.dataQueue with
  | [] => (s, true)
  | (payload, key) :: rest =>
    let s := { s with dataQueue := rest }
    match recvFunc with
    | none => (s, true)
    | some f =>
      match f payload with
      | .none => (s, true)
      | .notStr => (s, false)
      | .raises => (s, false)
      | .str response =>
        match s.sendBack response key net with
        | (s, .error _) => (s, false)
        | (s, .ok ()) => (s, true)

/-- `_process_queue` (OpenSocketResponser.py:54), one turn for each way the socket answers. -/
def processQueue (recvFunc : Option Handler) (s : OpenSocketResponser) :
    List TcpClient.SendAll → OpenSocketResponser × Bool
  | [] => (s, true)
  | net :: nets =>
    if s.KLresponser.connected then
      match processTurn recvFunc s net with
      | (s, true) => processQueue recvFunc s nets
      | (s, false) => (s, false)
    else (s, true)

theorem receive_eq {s : OpenSocketResponser} {chunks ms : List Bytes}
    (h : (s.KLresponser.receiveChunks (some quiet) chunks).received = s.KLresponser.received ++ ms) :
    s.receive chunks = ms.foldl internalDataRecv
      { s with KLresponser := s.KLresponser.receiveChunks (some quiet) chunks } := by
  rw [receive, h, List.drop_left]

end OpenSocketResponser
end KnotLink.Python
