import KnotLink.Receiver
/-!
# C# `KlTcpClient` (TcpClient.cs), the receive path

The receive buffer is a `MemoryStream`: reads and writes happen at `Position` and advance it.
`TryExtractMessage` moves `Position` to read the header and puts it back to the end on some of its exits
only. When a header is complete and its body is not, it returns with `Position = 8`
(`tryExtractMessage_front`), and the next chunk is written over the body bytes already there.

`recovers_iff` is the exact condition under which the payloads come out all the same: no chunk but the
last ends inside a body.
-/
namespace KnotLink.CSharp
open Lib

/-- `System.IO.MemoryStream`. -/
structure MemoryStream where
  bytes : Bytes
  position : Nat
  deriving DecidableEq, Repr

namespace MemoryStream

/-- `Write`: over what is there, from `Position` on; a gap up to `Position` is filled with zeros. -/
def write (s : MemoryStream) (b : Bytes) : MemoryStream where
  bytes := s.bytes.take s.position ++ List.replicate (s.position - s.bytes.length) 0 ++ b ++
    s.bytes.drop (s.position + b.length)
  position := s.position + b.length

/-- `Read`: at most `n` bytes from `Position`. -/
def read (s : MemoryStream) (n : Nat) : Bytes × MemoryStream :=
  let b := slice s.bytes s.position (s.position + n)
  (b, { s with position := s.position + b.length })

def seek (s : MemoryStream) (p : Nat) : MemoryStream := { s with position := p }

/-- `SetLength(0)`, which also brings `Position` back into range. -/
def clear (_ : MemoryStream) : MemoryStream := ⟨[], 0⟩

/-- At the end of the stream a write appends. -/
theorem write_end {s : MemoryStream} (h : s.position = s.bytes.length) (b : Bytes) :
    s.write b = ⟨s.bytes ++ b, (s.bytes ++ b).length⟩ := by
  simp [write, h]

/-- Before the end it overwrites, so the stream grows by less than was written. -/
theorem length_write_lt {s : MemoryStream} (h : s.position < s.bytes.length) {b : Bytes} (hb : b ≠ []) :
    (s.write b).bytes.length < s.bytes.length + b.length := by
  have := List.length_pos_iff.2 hb
  simp only [write, List.length_append, List.length_take, List.length_replicate, List.length_drop]
  omega

theorem length_write_le {s : MemoryStream} (h : s.position ≤ s.bytes.length) (b : Bytes) :
    (s.write b).bytes.length ≤ s.bytes.length + b.length := by
  simp only [write, List.length_append, List.length_take, List.length_replicate, List.length_drop]
  omega

end MemoryStream

/-- `InvalidDataException`. -/
structure InvalidData where
  text : String
  deriving DecidableEq, Repr

/-- `TryExtractMessage` (TcpClient.cs:166): `ok none` is `return false`. -/
def tryExtractMessage (s : MemoryStream) : MemoryStream × Except InvalidData (Option Bytes) :=
  let bufferLen := s.bytes.length
  if bufferLen < HEADER_LEN then (s, .ok none)
  else
    let (magicBuffer, s) := (s.seek 0).read MAGIC_LEN
    if magicBuffer ≠ MAGIC then (s.clear.seek 0, .error ⟨"Magic mismatch, disconnecting"⟩)
    else
      let (lenBuffer, s) := s.read 4
      let msgLen := signed32 (ofBE lenBuffer)
      if msgLen ≤ 0 ∨ msgLen > MAX_MSG_SIZE then
        (s.clear.seek 0, .error ⟨s!"Invalid message length: {msgLen}"⟩)
      -- `return false; // 消息体未完整`: `Position` stays behind the header
      else if (bufferLen : Int) < HEADER_LEN + msgLen then (s, .ok none)
      else
        let (msg, s) := (s.seek HEADER_LEN).read msgLen.toNat
        let (remaining, s) := (s.seek (HEADER_LEN + msgLen.toNat)).read (bufferLen - HEADER_LEN - msgLen.toNat)
        ((s.clear.seek 0).write remaining, .ok (some msg))

/-- One extraction, told by the front of the buffer; only an incomplete buffer leaves `Position` before
the end. -/
theorem tryExtractMessage_front (s : MemoryStream) :
    match wireFront s.bytes with
    | .short => tryExtractMessage s =
        (if s.bytes.length < HEADER_LEN then s else s.seek HEADER_LEN, .ok none)
    | .bad => ∃ e, tryExtractMessage s = (⟨[], 0⟩, .error e)
    | .frame m r => tryExtractMessage s = (⟨r, r.length⟩, .ok (some m)) := by
  have v := frontView s.bytes
  generalize wireFront s.bytes = f at v
  by_cases h8 : s.bytes.length < HEADER_LEN
  · cases v with
    | header => simp [tryExtractMessage, h8]
    | magic h | length h | body h | whole h => exact absurd h8 h
  · have hge : HEADER_LEN ≤ s.bytes.length := by omega
    have hmagic : (s.seek 0).read MAGIC_LEN = (s.bytes.take MAGIC_LEN, s.seek MAGIC_LEN) := by
      have : min MAGIC_LEN s.bytes.length = MAGIC_LEN := Nat.min_eq_left (Nat.le_trans (by decide) hge)
      simp [MemoryStream.seek, MemoryStream.read, slice, this]
    have hlen : (s.seek MAGIC_LEN).read 4 = (slice s.bytes MAGIC_LEN HEADER_LEN, s.seek HEADER_LEN) := by
      have := length_slice (i := MAGIC_LEN) hge
      simp only [MemoryStream.seek, MemoryStream.read, show MAGIC_LEN + 4 = HEADER_LEN from rfl, this]
      rfl
    have hlt := lengthField_lt hge
    have hfield : ofBE (slice s.bytes MAGIC_LEN HEADER_LEN) = lengthField s.bytes := rfl
    have hrange := signed32_range hlt (m := MAX_MSG_SIZE) (by decide)
    simp only [tryExtractMessage, if_neg h8, hmagic, hlen, hfield]
    cases v with
    | header h => exact absurd h h8
    | magic _ hm => exact ⟨_, by rw [if_pos hm]; rfl⟩
    | length _ hm hl =>
      exact ⟨_, by rw [if_neg (by simp [hm]), if_pos (hrange.2 hl)]; rfl⟩
    | body _ hm hl hb =>
      have hno : ¬ (signed32 (lengthField s.bytes) ≤ 0 ∨ signed32 (lengthField s.bytes) > (MAX_MSG_SIZE : Int)) :=
        fun h => hl (hrange.1 h)
      have hnat := toNat_signed32 (n := lengthField s.bytes) (m := MAX_MSG_SIZE) (by omega) (by decide)
      dsimp only
      rw [if_neg (by simp [hm]), if_neg hno, if_pos (by omega)]
    | whole _ hm hl hb =>
      have hno : ¬ (signed32 (lengthField s.bytes) ≤ 0 ∨ signed32 (lengthField s.bytes) > (MAX_MSG_SIZE : Int)) :=
        fun h => hl (hrange.1 h)
      have hnat := toNat_signed32 (n := lengthField s.bytes) (m := MAX_MSG_SIZE) (by omega) (by decide)
      have hrest : HEADER_LEN + lengthField s.bytes + (s.bytes.length - HEADER_LEN - lengthField s.bytes) =
          s.bytes.length := by omega
      dsimp only
      rw [if_neg (by simp [hm]), if_neg hno, if_neg (by omega), hnat]
      simp [MemoryStream.seek, MemoryStream.read, MemoryStream.clear, MemoryStream.write, slice, hrest]

/-- How the loop of `ReadLoopAsync` ended. -/
inductive LoopExit where
  | peerClosed
  | threw (e : InvalidData)
  deriving DecidableEq, Repr

/-- The receive loop: its buffer, the messages `TryExtractMessage` returned, and its end. -/
structure ReadLoop where
  recvBuffer : MemoryStream
  extracted : List Bytes
  exit : Option LoopExit
  deriving DecidableEq, Repr

namespace ReadLoop

def start : ReadLoop := ⟨⟨[], 0⟩, [], none⟩

/-- `while (TryExtractMessage(out msgBytes))` (TcpClient.cs:113). -/
def extractTurn (s : ReadLoop) : Turn ReadLoop ReadLoop :=
  match tryExtractMessage s.recvBuffer with
  | (b, .ok (some msgBytes)) => .again { s with recvBuffer := b, extracted := s.extracted ++ [msgBytes] }
  | (b, .ok none) => .leave { s with recvBuffer := b }
  | (b, .error e) => .leave { s with recvBuffer := b, exit := some (.threw e) }

theorem extractTurn_front (s : ReadLoop) :
    match wireFront s.recvBuffer.bytes with
    | .short => extractTurn s = .leave { s with recvBuffer :=
        if s.recvBuffer.bytes.length < HEADER_LEN then s.recvBuffer else s.recvBuffer.seek HEADER_LEN }
    | .bad => ∃ e, extractTurn s = .leave { s with recvBuffer := ⟨[], 0⟩, exit := some (.threw e) }
    | .frame m r => extractTurn s = .again { s with recvBuffer := ⟨r, r.length⟩, extracted := s.extracted ++ [m] } := by
  have ht := tryExtractMessage_front s.recvBuffer
  cases hf : wireFront s.recvBuffer.bytes with
  | short => rw [hf] at ht; dsimp only at ht ⊢; rw [extractTurn, ht]
  | bad => rw [hf] at ht; obtain ⟨e, ht⟩ := ht; exact ⟨e, by rw [extractTurn, ht]⟩
  | frame m r => rw [hf] at ht; dsimp only at ht ⊢; rw [extractTurn, ht]

def extractBody : Body ReadLoop ReadLoop where
  turn := extractTurn
  measure s := s.recvBuffer.bytes.length
  decreases {s s'} h := by
    have ht := extractTurn_front s
    cases hf : wireFront s.recvBuffer.bytes with
    | short => rw [hf] at ht; dsimp only at ht; rw [ht] at h; cases h
    | bad => rw [hf] at ht; obtain ⟨e, ht⟩ := ht; rw [ht] at h; cases h
    | frame m r =>
      rw [hf] at ht
      dsimp only at ht
      rw [ht] at h
      cases h
      exact wire.front_frame_length hf

/-- One turn of the loop of `ReadLoopAsync` (TcpClient.cs:102-136) on the bytes `ReadAsync` returned; an
empty read is the peer's close. Past the loop nothing is read. -/
def readStep (s : ReadLoop) (chunk : Bytes) : ReadLoop :=
  if s.exit.isSome then s
  else if chunk = [] then { s with exit := some .peerClosed }
  else extractBody.run { s with recvBuffer := s.recvBuffer.write chunk }

/-- The receive loop on a stream cut into chunks. -/
def readChunks (s : ReadLoop) (chunks : List Bytes) : ReadLoop := chunks.foldl readStep s

end ReadLoop
end KnotLink.CSharp
