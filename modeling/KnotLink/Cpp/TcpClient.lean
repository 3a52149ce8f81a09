import KnotLink.Receiver
/-!
# C++ `TcpClient` (TcpClient.hpp), the receiver

Lengths are `uint32_t`: `HEADER_LEN + len` is computed modulo 2³².
-/
namespace KnotLink.Cpp
open Lib

structure TcpClient where
  running : Bool
  recvBuffer : Bytes
  /-- The arguments of `onDataReceivedCallback`, in call order. -/
  delivered : List Bytes
  deriving DecidableEq, Repr

namespace TcpClient

/-- A client as `connectToServer` leaves it. -/
def connected : TcpClient := ⟨true, [], []⟩

/-- The body of the `while (true)` of `processBuffer` (TcpClient.hpp:192-225), the callback set. -/
def processTurn (s : TcpClient) : Turn TcpClient TcpClient :=
  if s.recvBuffer.length < HEADER_LEN then .leave s
  else if s.recvBuffer.take MAGIC_LEN ≠ MAGIC then .leave { s with running := false }
  else
    let len := ofBE (slice s.recvBuffer MAGIC_LEN HEADER_LEN)
    if len = 0 ∨ len > MAX_MSG_SIZE then .leave { s with running := false }
    else if s.recvBuffer.length < (HEADER_LEN + len) % 2 ^ 32 then .leave s
    else
      let msg := slice s.recvBuffer HEADER_LEN (HEADER_LEN + len)
      let s := { s with recvBuffer := s.recvBuffer.drop (HEADER_LEN + len) }
      if msg = heartbeatResponse then .again s else .again { s with delivered := s.delivered ++ [msg] }

/-- One turn, told by the front of the buffer: the 32-bit sum never wraps behind the length check. -/
theorem processTurn_front (s : TcpClient) :
    processTurn s = match wireFront s.recvBuffer with
      | .short => .leave s
      | .bad => .leave { s with running := false }
      | .frame m r => .again { s with recvBuffer := r, delivered := s.delivered ++ [m].filter isMessage } := by
  have hwrap : lengthField s.recvBuffer ≤ MAX_MSG_SIZE →
      (s.recvBuffer.length < (HEADER_LEN + lengthField s.recvBuffer) % 2 ^ 32 ↔
        s.recvBuffer.length < HEADER_LEN + lengthField s.recvBuffer) := by
    intro hl
    rw [Nat.mod_eq_of_lt]
    simp only [MAX_MSG_SIZE, HEADER_LEN, MAGIC_LEN] at hl ⊢
    omega
  have hfront := parse_front s.recvBuffer hwrap (.leave s) (.leave { s with running := false }) fun m r =>
    if m = heartbeatResponse then Turn.again { s with recvBuffer := r }
    else .again { s with recvBuffer := r, delivered := s.delivered ++ [m] }
  refine (show processTurn s = _ from rfl).trans (hfront.trans ?_)
  cases wireFront s.recvBuffer with
  | short | bad => rfl
  | frame m r =>
    by_cases hm : m = heartbeatResponse <;> simp [filter_isMessage_singleton, hm]

/-- `processBuffer` (TcpClient.hpp:190). -/
def processBody : Body TcpClient TcpClient where
  turn := processTurn
  measure s := s.recvBuffer.length
  decreases {s s'} h := by
    rw [processTurn_front] at h
    cases hf : wireFront s.recvBuffer with
    | short => rw [hf] at h; cases h
    | bad => rw [hf] at h; cases h
    | frame m r =>
      rw [hf] at h
      cases h
      exact wire.front_frame_length hf

/-- One turn of the loop of `readData` (TcpClient.hpp:230-256) on what `recv` returned; no bytes is the
peer's close. Past the loop nothing is read. -/
def readTurn (s : TcpClient) (chunk : Bytes) : TcpClient :=
  if !s.running then s
  else if chunk = [] then { s with running := false }
  else processBody.run { s with recvBuffer := s.recvBuffer ++ chunk }

/-- `readData` on a stream cut into chunks. -/
def readChunks (s : TcpClient) (chunks : List Bytes) : TcpClient := chunks.foldl readTurn s

def view : View TcpClient := ⟨running, recvBuffer, delivered, isMessage⟩

theorem processBody_parses : view.Parses processBody (fun r s => r = s) where
  short {s} hs hf := by
    have ht := processTurn_front s
    rw [show wireFront s.recvBuffer = .short from hf] at ht
    exact ⟨_, s, ht, rfl, hs, rfl, rfl⟩
  bad {s} hs hf := by
    have ht := processTurn_front s
    rw [show wireFront s.recvBuffer = .bad from hf] at ht
    exact ⟨_, _, ht, rfl, rfl, rfl⟩
  frame {s m r} hs hf := by
    have ht := processTurn_front s
    rw [show wireFront s.recvBuffer = .frame m r from hf] at ht
    exact ⟨_, ht, hs, rfl, rfl⟩

theorem readChunks_follows {g : List Bytes} {s : TcpClient} {a : Codec.Receiver UInt8 Bytes}
    (h : view.Follows g s a) {chunks : List Bytes} (hne : ∀ c ∈ chunks, c ≠ []) :
    view.Follows g (readChunks s chunks) (wire.feedAll a chunks) := by
  refine wire.feedAll_follow (P := fun c => c ≠ []) (fun {s a c} hc h => ?_) hne h
  refine h.feed processBody_parses (fun hd => ?_) fun hu =>
    ⟨{ s with recvBuffer := s.recvBuffer ++ c }, hu, rfl, rfl, fun s'' ho => ?_⟩
  · have hstop : s.running = false := hd
    simp [readTurn, hstop]
  · have hgo : s.running = true := hu
    rw [readTurn, if_neg (by simp [hgo]), if_neg hc]
    exact ho

end TcpClient
end KnotLink.Cpp
