import KnotLink.Js.TcpClient
/-!
# JavaScript `TcpClient` (TcpClient.js), the sender

`tcpSocket.write` takes what it is given; a message above 16 MiB throws before it. What the socket makes of the bytes is
left out, and with it the time between the peer's `end` and `close`, when `connected` is set and `write` takes nothing
(`QuerierWaiters.lean` has it).
-/
namespace KnotLink.Js
open Lib

/-- What `_writeWithLengthPrefix` throws. -/
structure Error where
  message : String
  deriving DecidableEq, Repr

def tooLong (length : Nat) : Error := ⟨s!"消息过长: {length} > {MAX_MSG_SIZE}"⟩

/-- A client and the bytes it has written to `tcpSocket`. -/
structure Writer where
  client : TcpClient
  written : Bytes
  deriving DecidableEq, Repr

namespace Writer

/-- `_writeWithLengthPrefix` (TcpClient.js:53-64). -/
def writeWithLengthPrefix (s : Writer) (data : Bytes) : Writer × Except Error Unit :=
  if !s.client.connected then (s, .ok ())
  else if data.length > MAX_MSG_SIZE then (s, .error (tooLong data.length))
  else
    let lengthBuf := toBE 4 data.length
    ({ s with written := s.written ++ (MAGIC ++ lengthBuf ++ data) }, .ok ())

/-- `send_data` (TcpClient.js:66). -/
def sendData (s : Writer) (data : Bytes) : Writer × Except Error Unit := s.writeWithLengthPrefix data

variable {s : Writer} {data : Bytes}

theorem sendData_disconnected (hs : s.client.connected = false) : s.sendData data = (s, .ok ()) := by
  simp [sendData, writeWithLengthPrefix, hs]

theorem sendData_tooLong (hs : s.client.connected = true) (h : MAX_MSG_SIZE < data.length) :
    s.sendData data = (s, .error (tooLong data.length)) := by
  simp [sendData, writeWithLengthPrefix, hs, h]

theorem sendData_ok (hs : s.client.connected = true) (h : data.length ≤ MAX_MSG_SIZE) :
    s.sendData data = ({ s with written := s.written ++ frame data }, .ok ()) := by
  simp [sendData, writeWithLengthPrefix, hs, show ¬ data.length > MAX_MSG_SIZE by omega, frame]

/-- The frame of `m` is written exactly if `m` is sent, connected and within the limit. -/
theorem sendData_frame_iff {m : Bytes} :
    (s.sendData data).2 = .ok () ∧ (s.sendData data).1.written = s.written ++ frame m ↔
      s.client.connected = true ∧ data = m ∧ data.length ≤ MAX_MSG_SIZE := by
  cases hs : s.client.connected with
  | false => simp [sendData_disconnected hs, frame_ne_nil]
  | true =>
    by_cases hlen : data.length ≤ MAX_MSG_SIZE
    · rw [sendData_ok hs hlen]
      simp [frame_injective.eq_iff, hlen]
    · rw [sendData_tooLong hs (by omega)]
      simp [hlen]

end Writer
end KnotLink.Js
