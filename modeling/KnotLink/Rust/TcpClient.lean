import KnotLink.Receiver
/-!
# Rust `TcpClient` (tcp_client.rs): `pack_message` and the read branch of `run`
-/
namespace KnotLink.Rust
open Lib

/-- `pack_message` (tcp_client.rs:37-44); `as u32` keeps the low 32 bits of the length. -/
def packMessage (data : Bytes) : Bytes :=
  let len := data.length % 2 ^ 32
  MAGIC ++ toBE 4 len ++ data

theorem packMessage_eq (data : Bytes) : packMessage data = frame data := by
  simp only [packMessage, frame]
  rw [show (2 : Nat) ^ 32 = 256 ^ 4 from rfl, toBE_mod]

/-- The errors of the read branch. -/
inductive ReadError where
  | magicMismatch
  | invalidMessageLength (len : Nat)
  deriving DecidableEq, Repr

/-- The state `run` keeps across its `select!` turns, as far as the read branch uses it, with the calls of
`on_data` and the value `run` has returned, if it has. -/
structure Run where
  readBuf : Bytes
  onData : List Bytes
  result : Option (Except ReadError Unit)

namespace Run

/-- `run` on a fresh connection. -/
def start : Run := ⟨[], [], none⟩

/-- The body of the inner `loop` (tcp_client.rs:85-117). -/
def parseTurn (s : Run) : Turn Run Run :=
  if s.readBuf.length < HEADER_LEN then .leave s
  else if s.readBuf.take MAGIC_LEN ≠ MAGIC then .leave { s with result := some (.error .magicMismatch) }
  else
    let len := ofBE (slice s.readBuf MAGIC_LEN HEADER_LEN)
    if len = 0 ∨ len > MAX_MSG_SIZE then .leave { s with result := some (.error (.invalidMessageLength len)) }
    else
      let totalLen := HEADER_LEN + len
      if s.readBuf.length < totalLen then .leave s
      else
        let msg := slice s.readBuf HEADER_LEN totalLen
        let s := { s with readBuf := s.readBuf.drop totalLen }
        if msg = heartbeatResponse then .again s else .again { s with onData := s.onData ++ [msg] }

/-- One turn, told by the front of the buffer. -/
theorem parseTurn_front (s : Run) :
    match wireFront s.readBuf with
    | .short => parseTurn s = .leave s
    | .bad => ∃ e, parseTurn s = .leave { s with result := some (.error e) }
    | .frame m r => parseTurn s = .again { s with readBuf := r, onData := s.onData ++ [m].filter isMessage } := by
  have v := frontView s.readBuf
  generalize wireFront s.readBuf = f at v
  cases v with
  | header h8 => simp [parseTurn, h8]
  | magic h8 hm => exact ⟨.magicMismatch, by simp [parseTurn, h8, hm]⟩
  | length h8 hm hl =>
    simp only [lengthField] at hl
    exact ⟨.invalidMessageLength (lengthField s.readBuf), by simp [parseTurn, h8, hm, hl, lengthField]⟩
  | body h8 hm hl hb =>
    simp only [lengthField] at hl hb
    simp [parseTurn, h8, hm, hl, hb]
  | whole h8 hm hl hb =>
    simp only [lengthField] at hl hb ⊢
    simp only [parseTurn, h8, hm, hl, hb, if_false, ne_eq, not_true_eq_false, filter_isMessage_singleton]
    split <;> simp

def parseBody : Body Run Run where
  turn := parseTurn
  measure s := s.readBuf.length
  decreases {s s'} h := by
    have ht := parseTurn_front s
    cases hf : wireFront s.readBuf with
    | short => rw [hf] at ht; dsimp only at ht; rw [ht] at h; cases h
    | bad => rw [hf] at ht; obtain ⟨e, ht⟩ := ht; rw [ht] at h; cases h
    | frame m r =>
      rw [hf] at ht
      dsimp only at ht
      rw [ht] at h
      cases h
      exact wire.front_frame_length hf

/-- The read branch on a chunk `read_buf` has appended (tcp_client.rs:74-118); an empty read is the peer's
close. Once `run` has returned, nothing is read. -/
def onRead (s : Run) (chunk : Bytes) : Run :=
  if s.result.isSome then s
  else if chunk = [] then { s with result := some (.ok ()) }
  else parseBody.run { s with readBuf := s.readBuf ++ chunk }

def readChunks (s : Run) (chunks : List Bytes) : Run := chunks.foldl onRead s

def view : View Run := ⟨fun s => s.result.isNone, readBuf, onData, isMessage⟩

theorem parseBody_parses : view.Parses parseBody (fun r s => r = s) where
  short {s} hs hf := by
    have ht := parseTurn_front s
    rw [show wireFront s.readBuf = .short from hf] at ht
    exact ⟨_, s, ht, rfl, hs, rfl, rfl⟩
  bad {s} hs hf := by
    have ht := parseTurn_front s
    rw [show wireFront s.readBuf = .bad from hf] at ht
    obtain ⟨e, ht⟩ := ht
    exact ⟨_, _, ht, rfl, rfl, rfl⟩
  frame {s m r} hs hf := by
    have ht := parseTurn_front s
    rw [show wireFront s.readBuf = .frame m r from hf] at ht
    exact ⟨_, ht, hs, rfl, rfl⟩

theorem readChunks_follows {g : List Bytes} {s : Run} {a : Codec.Receiver UInt8 Bytes}
    (h : view.Follows g s a) {chunks : List Bytes} (hne : ∀ c ∈ chunks, c ≠ []) :
    view.Follows g (readChunks s chunks) (wire.feedAll a chunks) := by
  refine wire.feedAll_follow (P := fun c => c ≠ []) (fun {s a c} hc h => ?_) hne h
  refine h.feed parseBody_parses (fun hd => ?_) fun hu =>
    ⟨{ s with readBuf := s.readBuf ++ c }, hu, rfl, rfl, fun s'' ho => ?_⟩
  · rw [onRead, if_pos (by simpa [view, Option.isNone_eq_false_iff] using hd)]
  · have hgo : ¬ s.result.isSome = true := by simpa [view] using hu
    rw [onRead, if_neg hgo, if_neg hc]
    exact ho

end Run
end KnotLink.Rust
