import KnotLink.Java.TcpClient
/-!
# Java `TcpClient` (TcpClient.java), the sender

`out` is set by `connectToServer` and never taken back, so behind `disconnect` a write meets a closed socket. What
`writeWithLengthPrefix` throws is printed.
-/
namespace KnotLink.Java
open Lib

structure IoException where
  message : String
  deriving DecidableEq, Repr

def tooLarge (length : Nat) : IoException := ⟨s!"Message too large: {length}"⟩

/-- How the writes to the stream end: all bytes are taken, or an exception comes behind the first `n`. -/
inductive Write where
  | ok
  | fails (n : Nat) (e : IoException)
  deriving DecidableEq, Repr

/-- The bytes that are taken. -/
def Write.taken : Write → Bytes → Bytes
  | .ok, bytes => bytes
  | .fails n _, bytes => bytes.take n

/-- A client with its stream: `null`, or the bytes it has taken. -/
structure Writer where
  client : TcpClient
  out : Option Bytes

namespace Writer

/-- `writeWithLengthPrefix` (TcpClient.java:56-67), on the stream. -/
def writeWithLengthPrefix (out data : Bytes) (write : Write) : Bytes × Except IoException Unit :=
  if data.length > MAX_MSG_SIZE then (out, .error (tooLarge data.length))
  else
    let headerBuf := MAGIC ++ toBE 4 data.length
    (out ++ write.taken (headerBuf ++ data), match write with
      | .ok => .ok ()
      | .fails _ e => .error e)

/-- `sendData` of a `byte[]` (TcpClient.java:84-94), and the line it prints. -/
def sendData (s : Writer) (data : Bytes) (write : Write) : Writer × Option String :=
  match s.out with
  | none => (s, some "Socket is not connected.")
  | some out =>
    match writeWithLengthPrefix out data write with
    | (out, .ok ()) => ({ s with out }, none)
    | (out, .error e) => ({ s with out }, some ("Send data error: " ++ e.message))

/-- What the stream has taken. -/
def written (s : Writer) : Bytes := s.out.getD []

variable {s : Writer} {data : Bytes} {write : Write}

theorem sendData_null (hs : s.out = none) : (s.sendData data write).1 = s := by
  simp [sendData, hs]

theorem sendData_tooLarge (h : MAX_MSG_SIZE < data.length) : (s.sendData data write).1 = s := by
  unfold sendData
  cases hs : s.out with
  | none => rfl
  | some out =>
    simp only [writeWithLengthPrefix, show data.length > MAX_MSG_SIZE from h, if_true, ← hs]

/-- The stream takes what it takes of the frame; the client stays as it is. -/
theorem sendData_taken {out : Bytes} (hs : s.out = some out) (h : data.length ≤ MAX_MSG_SIZE) :
    (s.sendData data write).1 = { s with out := some (out ++ write.taken (frame data)) } := by
  have hlen : ¬ data.length > MAX_MSG_SIZE := by omega
  cases write with
  | ok => simp [sendData, hs, writeWithLengthPrefix, hlen, frame]
  | fails n e => simp [sendData, hs, writeWithLengthPrefix, hlen, frame]

/-- The whole frame is written exactly if there is a stream, which takes it, and the message is within the limit. -/
theorem sendData_frame_iff : (s.sendData data write).1.written = s.written ++ frame data ↔
    s.out ≠ none ∧ data.length ≤ MAX_MSG_SIZE ∧ write.taken (frame data) = frame data := by
  cases hout : s.out with
  | none => simp [sendData_null hout, frame_ne_nil]
  | some out =>
    by_cases hlen : data.length ≤ MAX_MSG_SIZE
    · rw [sendData_taken hout hlen]
      simp [written, hout, hlen]
    · rw [sendData_tooLarge (by omega)]
      simp [hlen, frame_ne_nil]

end Writer
end KnotLink.Java
