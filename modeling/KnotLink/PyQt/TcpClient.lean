import KnotLink.QtSocket
/-!
# PyQt `TcpClient` (knotlink-pyqt, tcpclient.py)

Of the ways a connection ends only `disconnect` clears the buffer.
-/
namespace KnotLink.PyQt
open Lib QtSocket

/-- `HEADER_LEN + length` of Python's integers. -/
def frameEnd : FrameEnd where
  of len := HEADER_LEN + len
  exact _ _ := rfl

namespace TcpClient
variable {κ : Type}

/-- `_writeWithLengthPrefix` (tcpclient.py:47-58), whether it has written, and the client. -/
def writeWithLengthPrefix (s : TcpClient κ) (data : Bytes) : Bool × TcpClient κ :=
  if !s.connected then (false, s)
  else if data.length > MAX_MSG_SIZE then (false, s)
  else (true, { s with written := s.written ++ [MAGIC ++ toBE 4 data.length ++ data] })

/-- `sendData`. -/
def sendData (s : TcpClient κ) (data : Bytes) : TcpClient κ := (writeWithLengthPrefix s data).2

/-- The frame of `m` is written exactly if `m` is sent, connected and within the limit. -/
theorem sendData_frame_iff {s : TcpClient κ} {data m : Bytes} :
    (sendData s data).written = s.written ++ [frame m] ↔
      s.connected = true ∧ data = m ∧ data.length ≤ MAX_MSG_SIZE := by
  cases hs : s.connected with
  | false => simp [sendData, writeWithLengthPrefix, hs]
  | true =>
    by_cases hlen : data.length ≤ MAX_MSG_SIZE
    · have hwritten : (sendData s data).written = s.written ++ [frame data] := by
        simp [sendData, writeWithLengthPrefix, hs, show ¬ data.length > MAX_MSG_SIZE by omega, frame]
      rw [hwritten, List.append_right_inj, List.singleton_inj, frame_injective.eq_iff]
      simp [hlen]
    · simp [sendData, writeWithLengthPrefix, hs, show data.length > MAX_MSG_SIZE by omega, hlen]

/-- `connectToServer` on a socket that is not connected (tcpclient.py:31-37). -/
def connectToServer (s : TcpClient κ) (waitForConnected : Bool) : Bool × TcpClient κ :=
  if waitForConnected then (true, { s with connected := true }) else (false, s)

/-- `disconnect` (tcpclient.py:122-124). -/
def disconnect (s : TcpClient κ) : TcpClient κ := { s.disconnectFromHost with buffer := [] }

end TcpClient
end KnotLink.PyQt
