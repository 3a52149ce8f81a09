import KnotLink.Receiver
/-!
# Java `TcpClient` (TcpClient.java), the receiver

`java.nio.ByteBuffer` is kept as it is: a window into an array that `duplicate` and `slice` share. The
parser peeks at the header through a duplicate, advances its own window over header and body and slices.
The length is read as a signed `int`, so a field of 2³¹ or more is negative.

`processTurn_front` is the same statement as for the other SDKs, over `ByteBuffer.contents`.
-/
namespace KnotLink.Java
open Lib

/-- A window `position ≤ limit` into the backing array, at `offset`. -/
structure ByteBuffer where
  hb : Bytes
  offset : Nat
  position : Nat
  limit : Nat
  position_le : position ≤ limit
  limit_le : offset + limit ≤ hb.length

namespace ByteBuffer

def wrap (a : Bytes) : ByteBuffer := ⟨a, 0, 0, a.length, Nat.zero_le _, by simp⟩

/-- `ByteBuffer.allocate(0)`. -/
def empty : ByteBuffer := wrap []

def remaining (b : ByteBuffer) : Nat := b.limit - b.position

/-- A view with its own position over the same bytes. -/
def duplicate (b : ByteBuffer) : ByteBuffer := b

/-- `position(position() + n)`; `none` is the `IllegalArgumentException`. -/
def skip (b : ByteBuffer) (n : Nat) : Option ByteBuffer :=
  if h : b.position + n ≤ b.limit then some { b with position := b.position + n, position_le := h } else none

/-- `get(byte[n])`; `none` is the `BufferUnderflowException`. -/
def get (b : ByteBuffer) (n : Nat) : Option (Bytes × ByteBuffer) :=
  (b.skip n).map fun b' => (slice b.hb (b.offset + b.position) (b.offset + b.position + n), b')

/-- `slice()`: the rest of the window, as a buffer of its own. -/
def sliceRest (b : ByteBuffer) : ByteBuffer :=
  ⟨b.hb, b.offset + b.position, 0, b.remaining, Nat.zero_le _, by
    have := b.position_le; have := b.limit_le; simp only [remaining]; omega⟩

/-- The bytes between position and limit. -/
def contents (b : ByteBuffer) : Bytes := slice b.hb (b.offset + b.position) (b.offset + b.limit)

@[simp] theorem contents_wrap (a : Bytes) : (wrap a).contents = a := by simp [contents, wrap, slice]

@[simp] theorem contents_empty : empty.contents = [] := contents_wrap []

@[simp] theorem length_contents (b : ByteBuffer) : b.contents.length = b.remaining := by
  rw [contents, length_slice b.limit_le, remaining]
  omega

@[simp] theorem contents_sliceRest (b : ByteBuffer) : b.sliceRest.contents = b.contents := by
  have := b.position_le
  simp only [contents, sliceRest, remaining, Nat.add_zero]
  congr 1
  omega

theorem skip_some {b : ByteBuffer} {n : Nat} (h : n ≤ b.remaining) :
    ∃ b', b.skip n = some b' ∧ b'.contents = b.contents.drop n := by
  have hp := b.position_le
  simp only [remaining] at h
  refine ⟨_, dif_pos (by omega), ?_⟩
  simp [contents, slice, List.drop_drop, Nat.add_assoc]

theorem get_some {b : ByteBuffer} {n : Nat} (h : n ≤ b.remaining) :
    ∃ b', b.get n = some (b.contents.take n, b') ∧ b'.contents = b.contents.drop n := by
  obtain ⟨b', hs, hc⟩ := skip_some h
  refine ⟨b', ?_, hc⟩
  have hp := b.position_le
  simp only [remaining] at h
  simp only [get, hs, Option.map_some, contents, slice, List.take_drop, List.take_take]
  rw [show min (b.offset + b.position + n) (b.offset + b.limit) = b.offset + b.position + n by omega]

end ByteBuffer

/-- What the listener does with one message: `disconnect()` or not, then return or throw a
`RuntimeException`. -/
structure Reaction where
  disconnects : Bool
  throws : Bool
  deriving DecidableEq, Repr

/-- A listener, given every message it was called with so far, the present one last. -/
abbrev Listener := List Bytes → Reaction

/-- A listener that returns normally and does not disconnect. -/
def quiet : Listener := fun _ => ⟨false, false⟩

structure TcpClient where
  running : Bool
  /-- `socket != null && !socket.isClosed()`. -/
  socketOpen : Bool
  buffer : ByteBuffer
  /-- The message bytes handed to the listener, in order, before their decoding to a `String`. -/
  delivered : List Bytes

namespace TcpClient

/-- A client as `connectToServer` leaves it. -/
def connected : TcpClient := ⟨true, true, .empty, []⟩

/-- The loop condition of `readData` (TcpClient.java:126). -/
def reading (s : TcpClient) : Bool := s.running && s.socketOpen

/-- `disconnect` (TcpClient.java:215). -/
def disconnect (s : TcpClient) : TcpClient :=
  { s with running := false, socketOpen := false, buffer := .empty }

/-- `appendToBuffer` (TcpClient.java:142); `none` is the exception of `get`, which a buffer never throws
for its own `remaining()`. -/
def appendToBuffer (s : TcpClient) (chunk : Bytes) : Option TcpClient := do
  let (pending, _) ← s.buffer.get s.buffer.remaining
  return { s with buffer := .wrap (pending ++ chunk) }

/-- `dataReceivedListener.onDataReceived`; what it throws is caught on the spot (TcpClient.java:190-194). -/
def deliver (listener : Listener) (s : TcpClient) (msgBytes : Bytes) : TcpClient :=
  let s := { s with delivered := s.delivered ++ [msgBytes] }
  if (listener s.delivered).disconnects then s.disconnect else s

/-- How `processBuffer` ends: it returns, or a `RuntimeException` of a buffer operation leaves it. -/
inductive Exit where
  | returned (s : TcpClient)
  | threw (s : TcpClient)

/-- The body of the `while (true)` of `processBuffer` (TcpClient.java:154-199). -/
def processTurn (listener : Listener) (s : TcpClient) : Turn TcpClient Exit :=
  if s.buffer.remaining < HEADER_LEN then .leave (.returned s)
  else match s.buffer.duplicate.get MAGIC_LEN with
    | none => .leave (.threw s)
    | some (magicChk, dup) =>
      if magicChk ≠ MAGIC then .leave (.returned s.disconnect)
      else match dup.get 4 with
        | none => .leave (.threw s)
        | some (lenBytes, dup) =>
          let length := signed32 (ofBE lenBytes)
          if length ≤ 0 ∨ length > MAX_MSG_SIZE then .leave (.returned s.disconnect)
          else if (dup.remaining : Int) < length then .leave (.returned s)
          else match (s.buffer.skip HEADER_LEN).bind (·.get length.toNat) with
            | none => .leave (.threw s)
            | some (msgBytes, buffer) =>
              let s := { s with buffer := buffer.sliceRest }
              if msgBytes = heartbeatResponse then .again s
              else .again (deliver listener s msgBytes)

theorem deliver_remaining (listener : Listener) (s : TcpClient) (m : Bytes) :
    (deliver listener s m).buffer.remaining ≤ s.buffer.remaining := by
  unfold deliver
  dsimp only
  split
  · simp [disconnect, ByteBuffer.empty, ByteBuffer.wrap, ByteBuffer.remaining]
  · exact Nat.le_refl _

/-- The buffer operations of a turn, told by the contents of the buffer. -/
theorem processTurn_view (listener : Listener) (s : TcpClient) :
    match wireFront s.buffer.contents with
    | .short => processTurn listener s = .leave (.returned s)
    | .bad => processTurn listener s = .leave (.returned s.disconnect)
    | .frame m r => ∃ buffer : ByteBuffer, buffer.contents = r ∧
        processTurn listener s = .again (if m = heartbeatResponse then { s with buffer := buffer }
          else deliver listener { s with buffer := buffer } m) := by
  have v := frontView s.buffer.contents
  generalize wireFront s.buffer.contents = f at v
  have hrem : s.buffer.contents.length = s.buffer.remaining := s.buffer.length_contents
  by_cases h8 : s.buffer.remaining < HEADER_LEN
  · cases v with
    | header => simp [processTurn, h8]
    | magic h | length h | body h | whole h => exact absurd (hrem ▸ h8) h
  · have hge : HEADER_LEN ≤ s.buffer.remaining := by omega
    obtain ⟨dup, hdup, hdupc⟩ := ByteBuffer.get_some (b := s.buffer) (n := MAGIC_LEN)
      (Nat.le_trans (by decide) hge)
    have hdr : dup.remaining = s.buffer.remaining - MAGIC_LEN := by
      rw [← dup.length_contents, hdupc, List.length_drop, hrem]
    obtain ⟨dup2, hdup2, hdup2c⟩ := ByteBuffer.get_some (b := dup) (n := 4) (by
      rw [hdr]; simp [HEADER_LEN, MAGIC_LEN] at hge ⊢; omega)
    have hd2r : dup2.remaining = s.buffer.remaining - HEADER_LEN := by
      rw [← dup2.length_contents, hdup2c, List.length_drop, dup.length_contents, hdr]
      simp [HEADER_LEN]; omega
    have hlenBytes : dup.contents.take 4 = slice s.buffer.contents MAGIC_LEN HEADER_LEN := by
      rw [hdupc, slice, List.take_drop]; rfl
    have hlt := lengthField_lt (b := s.buffer.contents) (by rw [hrem]; exact hge)
    simp only [processTurn, if_neg h8, ByteBuffer.duplicate, hdup, hdup2, hlenBytes]
    have hfield : ofBE (slice s.buffer.contents MAGIC_LEN HEADER_LEN) = lengthField s.buffer.contents := rfl
    have hrange := signed32_range hlt (m := MAX_MSG_SIZE) (by decide)
    simp only [hfield]
    cases v with
    | header h => exact absurd (hrem ▸ h) h8
    | magic _ hm => simp [hm]
    | length _ hm hl =>
      have : signed32 (lengthField s.buffer.contents) ≤ 0 ∨
          signed32 (lengthField s.buffer.contents) > (MAX_MSG_SIZE : Int) := hrange.2 hl
      simp [hm, this]
    | body _ hm hl hb =>
      have hno : ¬ (signed32 (lengthField s.buffer.contents) ≤ 0 ∨
          signed32 (lengthField s.buffer.contents) > (MAX_MSG_SIZE : Int)) := fun h => hl (hrange.1 h)
      have hshort : (dup2.remaining : Int) < signed32 (lengthField s.buffer.contents) := by
        have := toNat_signed32 (n := lengthField s.buffer.contents) (m := MAX_MSG_SIZE) (by omega) (by decide)
        omega
      simp [hm, hno, hshort]
    | whole _ hm hl hb =>
      have hno : ¬ (signed32 (lengthField s.buffer.contents) ≤ 0 ∨
          signed32 (lengthField s.buffer.contents) > (MAX_MSG_SIZE : Int)) := fun h => hl (hrange.1 h)
      have hnat := toNat_signed32 (n := lengthField s.buffer.contents) (m := MAX_MSG_SIZE) (by omega) (by decide)
      have hfull : ¬ (dup2.remaining : Int) < signed32 (lengthField s.buffer.contents) := by omega
      obtain ⟨b1, hb1, hb1c⟩ := ByteBuffer.skip_some hge
      have hb1r : b1.remaining = s.buffer.remaining - HEADER_LEN := by
        rw [← b1.length_contents, hb1c, List.length_drop, hrem]
      obtain ⟨b2, hb2, hb2c⟩ := ByteBuffer.get_some (b := b1) (n := lengthField s.buffer.contents) (by omega)
      refine ⟨b2.sliceRest, ?_, ?_⟩
      · rw [b2.contents_sliceRest, hb2c, hb1c, List.drop_drop]
      · have hmsg : b1.contents.take (lengthField s.buffer.contents) =
            slice s.buffer.contents HEADER_LEN (HEADER_LEN + lengthField s.buffer.contents) := by
          rw [hb1c, slice, List.take_drop]
        simp only [hm, ne_eq, not_true_eq_false, if_false, hno, hfull, hb1, Option.bind_some, hnat, hb2, hmsg]
        split <;> simp_all

/-- `processBuffer` (TcpClient.java:153). -/
def processBody (listener : Listener) : Body TcpClient Exit where
  turn := processTurn listener
  measure s := s.buffer.remaining
  decreases {s s'} h := by
    have hv := processTurn_view listener s
    cases hf : wireFront s.buffer.contents with
    | short => rw [hf] at hv; dsimp only at hv; rw [hv] at h; cases h
    | bad => rw [hf] at hv; dsimp only at hv; rw [hv] at h; cases h
    | frame m r =>
      rw [hf] at hv
      obtain ⟨buffer, hb, ht⟩ := hv
      rw [ht] at h
      have hlt := wire.front_frame_length hf
      rw [← hb, buffer.length_contents, s.buffer.length_contents] at hlt
      injection h with h
      rw [← h]
      split
      · exact hlt
      · exact Nat.lt_of_le_of_lt (deliver_remaining _ _ _) hlt

def processBuffer (listener : Listener) (s : TcpClient) : Exit := (processBody listener).run s

/-- One turn of the loop of `readData` (TcpClient.java:126-139) on a chunk that was read; past the loop
nothing is read. A `RuntimeException` ends the loop, and the `finally` clears `running`. -/
def readTurn (listener : Listener) (s : TcpClient) (chunk : Bytes) : TcpClient :=
  if s.reading then
    match s.appendToBuffer chunk with
    | none => { s with running := false }
    | some s => match processBuffer listener s with
      | .returned s => s
      | .threw s => { s with running := false }
  else s

/-- `readData` on a stream cut into chunks. -/
def readChunks (listener : Listener) (s : TcpClient) (chunks : List Bytes) : TcpClient :=
  chunks.foldl (readTurn listener) s

/-! ## The receiver follows the codec -/

def view : View TcpClient := ⟨reading, fun s => s.buffer.contents, delivered, isMessage⟩

theorem processBody_parses : view.Parses (processBody quiet) (fun e s => e = .returned s) where
  short {s} hs hf := by
    have hv := processTurn_view quiet s
    rw [show wireFront s.buffer.contents = .short from hf] at hv
    exact ⟨_, s, hv, rfl, hs, rfl, rfl⟩
  bad {s} hs hf := by
    have hv := processTurn_view quiet s
    rw [show wireFront s.buffer.contents = .bad from hf] at hv
    exact ⟨_, s.disconnect, hv, rfl, rfl, rfl⟩
  frame {s m r} hs hf := by
    have hv := processTurn_view quiet s
    rw [show wireFront s.buffer.contents = .frame m r from hf] at hv
    obtain ⟨buffer, hb, ht⟩ := hv
    refine ⟨_, ht, ?_⟩
    by_cases hm : m = heartbeatResponse
    · rw [if_pos hm]
      exact ⟨hs, hb, by simp [view, filter_isMessage_singleton, hm]⟩
    · rw [if_neg hm]
      exact ⟨hs, hb, by simp [view, filter_isMessage_singleton, hm, deliver, quiet]⟩

theorem appendToBuffer_eq (s : TcpClient) (c : Bytes) :
    s.appendToBuffer c = some { s with buffer := .wrap (s.buffer.contents ++ c) } := by
  obtain ⟨b, hget, -⟩ := ByteBuffer.get_some (b := s.buffer) (Nat.le_refl _)
  have : s.buffer.contents.take s.buffer.remaining = s.buffer.contents := List.take_of_length_le (by simp)
  simp [appendToBuffer, hget, this]

theorem readChunks_follows {g : List Bytes} {s : TcpClient} {a : Codec.Receiver UInt8 Bytes}
    (h : view.Follows g s a) (chunks : List Bytes) :
    view.Follows g (readChunks quiet s chunks) (wire.feedAll a chunks) := by
  refine wire.feedAll_follow (P := fun _ => True) (fun {s a c} _ h => ?_) (by simp) h
  refine h.feed processBody_parses (fun hd => ?_) fun hu =>
    ⟨{ s with buffer := .wrap (s.buffer.contents ++ c) }, hu, ByteBuffer.contents_wrap _, rfl, fun s'' ho => ?_⟩
  · rw [readTurn, if_neg (by simpa [view] using hd)]
  · have hlive : s.reading = true := hu
    rw [readTurn, if_pos hlive, appendToBuffer_eq]
    dsimp only
    rw [processBuffer, ho]

end TcpClient
end KnotLink.Java
