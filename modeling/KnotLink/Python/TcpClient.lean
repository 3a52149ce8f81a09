import KnotLink.Frame
/-!
# Python `TcpClient` (tcpclient.py)

The client as the code has it: the framed writer (`_write_with_length_prefix`), the parser
(`_process_buffer`) and the receive thread (`receive_data`). The user callback is known by what it does
to the client: it may call `disconnect()` and it may raise, and both may depend on every message it has
been given.

`Stream.lean` connects the parser and the thread to the codec of `Frame.lean`.
-/
namespace KnotLink.Python
open Lib

/-- The exceptions `receive_data` tells apart: `except socket.error` catches the first only. -/
inductive Exn where
  | socketError
  | other
  deriving DecidableEq, Repr

/-- What the callback does with one message: `disconnect()` or not, then return or raise. -/
structure Reaction where
  disconnects : Bool
  raises : Option Exn
  deriving DecidableEq, Repr

/-- A callback, given every message it was called with so far, the present one last. -/
abbrev Callback := List Bytes → Reaction

/-- A callback that returns normally and does not disconnect. -/
def quiet : Callback := fun _ => ⟨false, none⟩

structure TcpClient where
  connected : Bool
  /-- `tcp_socket` has not been closed. -/
  socketOpen : Bool
  buffer : Bytes
  /-- The arguments of `received_data_callback`, in call order. -/
  received : List Bytes
  /-- The bytes the socket has taken, in order. -/
  sent : Bytes
  deriving DecidableEq, Repr

namespace TcpClient

/-- A connected client that has sent and received nothing. -/
def fresh : TcpClient := ⟨true, true, [], [], []⟩

/-- `disconnect` (tcpclient.py:146), the timer apart. -/
def disconnect (s : TcpClient) : TcpClient := { s with connected := false, socketOpen := false }

/-! ## Sending -/

/-- How `sendall` ends: everything is taken, or `socket.error` after the first `n` bytes. -/
inductive SendAll where
  | ok
  | fails (n : Nat)
  deriving DecidableEq, Repr

/-- `ValueError` of an oversized message. -/
structure ValueError where
  text : String
  deriving DecidableEq, Repr

def tooLong (length : Nat) : ValueError := ⟨s!"消息过长: {length} > {MAX_MSG_SIZE}"⟩

/-- What `_write_with_length_prefix` hands to `sendall` (tcpclient.py:64-70). -/
def packet (data : Bytes) : Except ValueError Bytes :=
  if data.length > MAX_MSG_SIZE then .error (tooLong data.length)
  else .ok (MAGIC ++ toBE 4 data.length ++ data)

/-- `_write_with_length_prefix` (tcpclient.py:59). -/
def writeWithLengthPrefix (s : TcpClient) (data : Bytes) (net : SendAll) : TcpClient × Except ValueError Unit :=
  if !s.connected then (s, .ok ())
  else match packet data with
    | .error e => (s, .error e)
    | .ok bytes => match net with
      | .ok => ({ s with sent := s.sent ++ bytes }, .ok ())
      | .fails n => ({ s with sent := s.sent ++ bytes.take n, connected := false }, .ok ())

/-- `send_data` (tcpclient.py:74). -/
def sendData (s : TcpClient) (data : Bytes) (net : SendAll) : TcpClient × Except ValueError Unit :=
  s.writeWithLengthPrefix data net

/-- Payloads sent one after another, the socket taking every byte. -/
def sendEach (s : TcpClient) (payloads : List Bytes) : TcpClient :=
  payloads.foldl (fun s p => (s.sendData p .ok).1) s

theorem packet_ok {data : Bytes} (h : data.length ≤ MAX_MSG_SIZE) : packet data = .ok (frame data) := by
  rw [packet, if_neg (by omega)]; rfl

theorem sendData_ok {s : TcpClient} {data : Bytes} (hs : s.connected = true) (h : data.length ≤ MAX_MSG_SIZE) :
    s.sendData data .ok = ({ s with sent := s.sent ++ frame data }, .ok ()) := by
  simp [sendData, writeWithLengthPrefix, hs, packet_ok h]

theorem sendEach_sent {payloads : List Bytes} (hp : ∀ p ∈ payloads, Admissible p) {s : TcpClient}
    (hs : s.connected = true) : (s.sendEach payloads).sent = s.sent ++ wire.encodeAll payloads := by
  induction payloads generalizing s with
  | nil => simp [sendEach]
  | cons p ps ih =>
    have hstep := sendData_ok hs (hp p (by simp)).2
    have := ih (fun x hx => hp x (by simp [hx])) (s := { s with sent := s.sent ++ frame p }) hs
    simp only [sendEach, List.foldl_cons, hstep] at this ⊢
    rw [this, Codec.encodeAll_cons, List.append_assoc]
    rfl

/-! ## Receiving -/

/-- `handle_received_data` (tcpclient.py:141); the callback may be unset. -/
def handleReceivedData (cb : Option Callback) (s : TcpClient) (msg : Bytes) : TcpClient × Option Exn :=
  match cb with
  | none => (s, none)
  | some f =>
    let s := { s with received := s.received ++ [msg] }
    let r := f s.received
    (if r.disconnects then s.disconnect else s, r.raises)

@[simp] theorem handleReceivedData_buffer (cb : Option Callback) (s : TcpClient) (msg : Bytes) :
    (handleReceivedData cb s msg).1.buffer = s.buffer := by
  unfold handleReceivedData disconnect
  split
  · rfl
  · dsimp only; split <;> rfl

/-- The body of the `while True` of `_process_buffer` (tcpclient.py:111-139). A turn that leaves the
loop says which exception, if any, goes on to the caller. -/
def processTurn (cb : Option Callback) (s : TcpClient) : Turn TcpClient (TcpClient × Option Exn) :=
  if s.buffer.length < HEADER_LEN then .leave (s, none)
  else if s.buffer.take MAGIC_LEN ≠ MAGIC then
    .leave ({ s with connected := false, socketOpen := false }, none)
  else
    let length := ofBE (slice s.buffer MAGIC_LEN HEADER_LEN)
    if length = 0 ∨ length > MAX_MSG_SIZE then
      .leave ({ s with connected := false, socketOpen := false }, none)
    else if s.buffer.length < HEADER_LEN + length then .leave (s, none)
    else
      let msg := slice s.buffer HEADER_LEN (HEADER_LEN + length)
      let s := { s with buffer := s.buffer.drop (HEADER_LEN + length) }
      if msg = heartbeatResponse then .again s
      else match handleReceivedData cb s msg with
        | (s, none) => .again s
        | (s, some e) => .leave (s, some e)

theorem processTurn_again {cb : Option Callback} {s s' : TcpClient} (h : processTurn cb s = .again s') :
    s'.buffer.length < s.buffer.length := by
  have hpos : 0 < HEADER_LEN := by decide
  unfold processTurn at h
  split at h
  · cases h
  · split at h
    · cases h
    · dsimp only at h
      split at h
      · cases h
      · split at h
        · cases h
        · rename_i hlen _ _ _
          split at h
          · cases h; simp only [List.length_drop]; omega
          · split at h
            · rename_i s1 heq
              cases h
              have hb := congrArg (fun p => p.1.buffer) heq
              simp only [handleReceivedData_buffer] at hb
              rw [← hb, List.length_drop]; omega
            · cases h

/-- `_process_buffer` (tcpclient.py:107). -/
def processBody (cb : Option Callback) : Body TcpClient (TcpClient × Option Exn) where
  turn := processTurn cb
  measure s := s.buffer.length
  decreases := processTurn_again

def processBuffer (cb : Option Callback) (s : TcpClient) : TcpClient × Option Exn := (processBody cb).run s

/-- What `recv(4096)` hands the receive thread; an empty chunk is the peer's close. -/
inductive Recv where
  | chunk (c : Bytes)
  | error
  deriving DecidableEq, Repr

/-- Where the receive thread stands: in its loop, past it, or dead of an exception. -/
inductive ThreadState where
  | receiving
  | ended
  | died
  deriving DecidableEq, Repr

/-- One turn of `while self.connected` (tcpclient.py:91-105). -/
def receiveTurn (cb : Option Callback) (s : TcpClient) : Recv → TcpClient × ThreadState
  | .error => ({ s with connected := false }, .ended)
  | .chunk c =>
    if c = [] then ({ s with connected := false }, .ended)
    else match processBuffer cb { s with buffer := s.buffer ++ c } with
      | (s, none) => (s, .receiving)
      | (s, some .socketError) => ({ s with connected := false }, .ended)
      | (s, some .other) => (s, .died)

/-- `receive_data` (tcpclient.py:89) on what the socket hands over, one `recv` after another. -/
def receiveData (cb : Option Callback) (s : TcpClient) : List Recv → TcpClient × ThreadState
  | [] => (s, if s.connected then .receiving else .ended)
  | r :: rs =>
    if s.connected then
      match receiveTurn cb s r with
      | (s, .receiving) => receiveData cb s rs
      | out => out
    else (s, .ended)

/-- `receive_data` on a stream cut into chunks. -/
def receiveChunks (cb : Option Callback) (s : TcpClient) (chunks : List Bytes) : TcpClient :=
  (receiveData cb s (chunks.map .chunk)).1

end TcpClient
end KnotLink.Python
