import KnotLink.QtSocket
/-!
# Qt `TcpClient` (tcpclient.cpp)

Lengths are `quint32`: `len + HEADER_LEN` is computed modulo 2³² and compared as an `int`. Nothing clears the
buffer.
-/
namespace KnotLink.Qt
open Lib QtSocket

/-- The sum neither wraps nor changes its sign. -/
theorem signed_frameEnd {len : Nat} (h : len ≤ MAX_MSG_SIZE) :
    signed32 ((len + HEADER_LEN) % 2 ^ 32) = HEADER_LEN + len := by
  have hlt : len + HEADER_LEN < 2 ^ 31 := by
    simp only [MAX_MSG_SIZE, HEADER_LEN, MAGIC_LEN] at h ⊢
    omega
  rw [Nat.mod_eq_of_lt (by omega), signed32, if_pos hlt]
  omega

/-- `(int)(len + HEADER_LEN)`. -/
def frameEnd : FrameEnd where
  of len := signed32 ((len + HEADER_LEN) % 2 ^ 32)
  exact _ h := signed_frameEnd h

namespace TcpClient
variable {κ : Type}

/-- `writeWithLengthPrefix` (tcpclient.cpp:55-63). -/
def writeWithLengthPrefix (s : TcpClient κ) (data : Bytes) : TcpClient κ :=
  { s with written := s.written ++ [MAGIC ++ toBE 4 data.length ++ data] }

/-- `sendData` (tcpclient.cpp:66-72). -/
def sendData (s : TcpClient κ) (data : Bytes) : TcpClient κ :=
  if s.connected then writeWithLengthPrefix s data else s

/-- `sendHeartbeat`. -/
def sendHeartbeat (s : TcpClient κ) : TcpClient κ :=
  if s.connected then writeWithLengthPrefix s heartbeat else s

/-- `connectToServer` on a socket that is not connected, with `socketConnected` (tcpclient.cpp:31-45). -/
def connectToServer (s : TcpClient κ) (waitForConnected : Bool) : TcpClient κ :=
  if waitForConnected then sendHeartbeat { s with connected := true } else s

end TcpClient
end KnotLink.Qt
