import KnotLink.Lib.Bytes
import KnotLink.Lib.Framing
/-!
# The wire format

Every SDK frames a message as the magic `KK 00 02`, a 4-byte big-endian length and the body, and
reads lengths 1 … 16 MiB only. The constants are declared once per SDK with the same values
(tcpclient.py:15, TcpClient.java:28-31, tcp_client.rs:12-15, TcpClient.hpp:152-154, TcpClient.cs:20-25).

`wire` is the format as a codec: the meaning the SDKs' parsers are compared with.
-/
namespace KnotLink
open Lib

def MAGIC : Bytes := [0x4B, 0x4B, 0x00, 0x02]
def MAGIC_LEN : Nat := 4
def HEADER_LEN : Nat := MAGIC_LEN + 4
def MAX_MSG_SIZE : Nat := 16 * 1024 * 1024

/-- The bytes of an ASCII literal. -/
def ascii (s : String) : Bytes := s.toList.map fun c => UInt8.ofNat c.toNat

def heartbeat : Bytes := ascii "heartbeat"
def heartbeatResponse : Bytes := ascii "heartbeat_response"

/-- Magic, length, body. -/
def frame (m : Bytes) : Bytes := MAGIC ++ toBE 4 m.length ++ m

/-- The messages every receiver takes. -/
def Admissible (m : Bytes) : Prop := 1 ≤ m.length ∧ m.length ≤ MAX_MSG_SIZE

instance (m : Bytes) : Decidable (Admissible m) := inferInstanceAs (Decidable (_ ∧ _))

@[simp] theorem length_MAGIC : MAGIC.length = 4 := rfl

@[simp] theorem length_frame (m : Bytes) : (frame m).length = HEADER_LEN + m.length := by
  simp [frame, HEADER_LEN, MAGIC_LEN]; omega

/-- The body of a frame. -/
theorem drop_frame (m : Bytes) : (frame m).drop HEADER_LEN = m :=
  List.drop_left' (by simp [HEADER_LEN, MAGIC_LEN])

/-- Frames tell their messages. -/
theorem frame_injective : Function.Injective frame := by
  intro m n h
  rw [← drop_frame m, h, drop_frame]

theorem frame_ne_nil (m : Bytes) : frame m ≠ [] := by
  intro h
  have := congrArg List.length h
  simp [HEADER_LEN] at this

/-- What has been written grows by a frame. -/
theorem ne_append_frame (b m : Bytes) : b ≠ b ++ frame m := fun h => frame_ne_nil m (List.self_eq_append_right.1 h)

theorem Admissible.lt_pow {m : Bytes} (h : Admissible m) : m.length < 256 ^ 4 := by
  have := h.2
  simp [MAX_MSG_SIZE] at this
  omega

/-! ## The four parts of a buffer -/

/-- The length field. -/
def lengthField (b : Bytes) : Nat := ofBE (slice b MAGIC_LEN HEADER_LEN)

/-- A header the receivers accept: the magic and a length in range. -/
def GoodHeader (b : Bytes) : Prop :=
  b.take MAGIC_LEN = MAGIC ∧ lengthField b ≠ 0 ∧ lengthField b ≤ MAX_MSG_SIZE

instance (b : Bytes) : Decidable (GoodHeader b) := inferInstanceAs (Decidable (_ ∧ _ ∧ _))

theorem lengthField_lt {b : Bytes} (h : HEADER_LEN ≤ b.length) : lengthField b < 2 ^ 32 := by
  have hl := length_slice (i := MAGIC_LEN) h
  have := ofBE_lt (slice b MAGIC_LEN HEADER_LEN)
  rw [hl] at this
  exact this

theorem lengthField_append {b : Bytes} (h : HEADER_LEN ≤ b.length) (c : Bytes) :
    lengthField (b ++ c) = lengthField b := by
  rw [lengthField, lengthField, slice_append_of_le h]

theorem goodHeader_append {b : Bytes} (h : HEADER_LEN ≤ b.length) (c : Bytes) :
    GoodHeader (b ++ c) ↔ GoodHeader b := by
  have hm : MAGIC_LEN ≤ b.length := Nat.le_trans (by decide) h
  rw [GoodHeader, GoodHeader, lengthField_append h, List.take_append_of_le_length hm]

theorem lengthField_frame {m : Bytes} (h : m.length < 256 ^ 4) (r : Bytes) :
    lengthField (frame m ++ r) = m.length := by
  have : slice (frame m ++ r) MAGIC_LEN HEADER_LEN = toBE 4 m.length := by
    rw [frame, List.append_assoc _ m r]
    exact slice_append_append _ _ _ rfl (by simp [HEADER_LEN])
  rw [lengthField, this, ofBE_toBE h]

theorem goodHeader_frame {m : Bytes} (h : Admissible m) (r : Bytes) : GoodHeader (frame m ++ r) := by
  refine ⟨?_, ?_, ?_⟩
  · rw [frame, List.append_assoc, List.append_assoc]
    exact List.take_left' rfl
  · rw [lengthField_frame h.lt_pow]; exact Nat.ne_of_gt h.1
  · rw [lengthField_frame h.lt_pow]; exact h.2

/-- A buffer with a good header and a whole body starts with the frame of that body. -/
theorem eq_frame_append {b : Bytes} (hg : GoodHeader b) (hb : HEADER_LEN + lengthField b ≤ b.length) :
    b = frame (slice b HEADER_LEN (HEADER_LEN + lengthField b)) ++ b.drop (HEADER_LEN + lengthField b) := by
  have h8 : HEADER_LEN ≤ b.length := by omega
  have hlen : (slice b HEADER_LEN (HEADER_LEN + lengthField b)).length = lengthField b := by
    rw [length_slice hb]; omega
  have hfield : toBE 4 (lengthField b) = slice b MAGIC_LEN HEADER_LEN :=
    toBE_ofBE (by rw [length_slice h8]; rfl)
  have hhead : MAGIC ++ slice b MAGIC_LEN HEADER_LEN = b.take HEADER_LEN := by
    have : b.take MAGIC_LEN = (b.take HEADER_LEN).take MAGIC_LEN := by rw [List.take_take]; rfl
    rw [← hg.1, this, slice, List.take_append_drop]
  rw [frame, hlen, hfield, hhead]
  exact (take_append_slice_append_drop b (by omega)).symm

/-! ## The format as a codec -/

def wireFront (b : Bytes) : Front UInt8 Bytes :=
  if b.length < HEADER_LEN then .short
  else if GoodHeader b then
    if b.length < HEADER_LEN + lengthField b then .short
    else .frame (slice b HEADER_LEN (HEADER_LEN + lengthField b)) (b.drop (HEADER_LEN + lengthField b))
  else .bad

/-- The five ways the front of a buffer can be, in the order every SDK tests them. -/
inductive FrontView (b : Bytes) : Front UInt8 Bytes → Prop where
  | header (h8 : b.length < HEADER_LEN) : FrontView b .short
  | magic (h8 : ¬ b.length < HEADER_LEN) (hm : b.take MAGIC_LEN ≠ MAGIC) : FrontView b .bad
  | length (h8 : ¬ b.length < HEADER_LEN) (hm : b.take MAGIC_LEN = MAGIC)
      (hl : lengthField b = 0 ∨ lengthField b > MAX_MSG_SIZE) : FrontView b .bad
  | body (h8 : ¬ b.length < HEADER_LEN) (hm : b.take MAGIC_LEN = MAGIC)
      (hl : ¬ (lengthField b = 0 ∨ lengthField b > MAX_MSG_SIZE))
      (hb : b.length < HEADER_LEN + lengthField b) : FrontView b .short
  | whole (h8 : ¬ b.length < HEADER_LEN) (hm : b.take MAGIC_LEN = MAGIC)
      (hl : ¬ (lengthField b = 0 ∨ lengthField b > MAX_MSG_SIZE))
      (hb : ¬ b.length < HEADER_LEN + lengthField b) :
      FrontView b (.frame (slice b HEADER_LEN (HEADER_LEN + lengthField b)) (b.drop (HEADER_LEN + lengthField b)))

theorem frontView (b : Bytes) : FrontView b (wireFront b) := by
  unfold wireFront
  by_cases h8 : b.length < HEADER_LEN
  · rw [if_pos h8]; exact .header h8
  · rw [if_neg h8]
    by_cases hm : b.take MAGIC_LEN = MAGIC
    · by_cases hl : lengthField b = 0 ∨ lengthField b > MAX_MSG_SIZE
      · rw [if_neg (fun hg => by have := hg.2; omega)]; exact .length h8 hm hl
      · rw [if_pos ⟨hm, by omega, by omega⟩]
        by_cases hb : b.length < HEADER_LEN + lengthField b
        · rw [if_pos hb]; exact .body h8 hm hl hb
        · rw [if_neg hb]; exact .whole h8 hm hl hb
    · rw [if_neg (fun hg => hm hg.1)]; exact .magic h8 hm

/-- The tests of a parser read the front of its buffer, however it finds out that the body is not whole. -/
theorem parse_front {α : Type} (b : Bytes) {incomplete : Prop} [Decidable incomplete]
    (hincomplete : lengthField b ≤ MAX_MSG_SIZE → (incomplete ↔ b.length < HEADER_LEN + lengthField b))
    (short bad : α) (whole : Bytes → Bytes → α) :
    (if b.length < HEADER_LEN then short
    else if b.take MAGIC_LEN ≠ MAGIC then bad
    else if lengthField b = 0 ∨ lengthField b > MAX_MSG_SIZE then bad
    else if incomplete then short
    else whole (slice b HEADER_LEN (HEADER_LEN + lengthField b)) (b.drop (HEADER_LEN + lengthField b))) =
      match wireFront b with
      | .short => short
      | .bad => bad
      | .frame m r => whole m r := by
  have v := frontView b
  generalize wireFront b = f at v
  cases v with
  | header h8 => rw [if_pos h8]
  | magic h8 hm => rw [if_neg h8, if_pos hm]
  | length h8 hm hl => rw [if_neg h8, if_neg (not_not.2 hm), if_pos hl]
  | body h8 hm hl hb =>
    rw [if_neg h8, if_neg (not_not.2 hm), if_neg hl, if_pos ((hincomplete (by omega)).2 hb)]
  | whole h8 hm hl hb =>
    rw [if_neg h8, if_neg (not_not.2 hm), if_neg hl, if_neg (mt (hincomplete (by omega)).1 hb)]

theorem wireFront_frame {b m r : Bytes} : wireFront b = .frame m r ↔ Admissible m ∧ b = frame m ++ r := by
  constructor
  · intro h
    unfold wireFront at h
    split at h
    · cases h
    · split at h
      · rename_i hg
        split at h
        · cases h
        · cases h
          have hb : HEADER_LEN + lengthField b ≤ b.length := by omega
          refine ⟨?_, eq_frame_append hg hb⟩
          have hlen := length_slice (i := HEADER_LEN) hb
          have := hg.2
          exact ⟨by omega, by omega⟩
      · cases h
  · rintro ⟨hok, rfl⟩
    have hlf := lengthField_frame hok.lt_pow r
    have hlen : (frame m ++ r).length = HEADER_LEN + m.length + r.length := by simp
    rw [wireFront, if_neg (by omega), if_pos (goodHeader_frame hok r), hlf, if_neg (by omega)]
    congr 1
    · rw [frame]
      exact slice_append_append _ _ _ (by simp [HEADER_LEN, MAGIC_LEN]) rfl
    · exact List.drop_left' (by simp)

@[simp] theorem wireFront_nil : wireFront [] = .short := rfl

theorem wireFront_bad {b : Bytes} : wireFront b = .bad ↔ HEADER_LEN ≤ b.length ∧ ¬ GoodHeader b := by
  unfold wireFront
  split
  · simp; omega
  · split
    · rename_i hg
      split <;> simp [hg]
    · rename_i hl hg
      exact ⟨fun _ => ⟨by omega, hg⟩, fun _ => rfl⟩

def wire : Codec UInt8 Bytes where
  encode := frame
  Ok := Admissible
  front := wireFront
  front_nil := rfl
  encode_ne_nil := frame_ne_nil
  front_frame := wireFront_frame
  bad_append {b} c h := by
    obtain ⟨h8, hg⟩ := wireFront_bad.1 h
    exact wireFront_bad.2 ⟨by simp; omega, by rwa [goodHeader_append h8]⟩

@[simp] theorem wire_encode (m : Bytes) : wire.encode m = frame m := rfl

theorem wire_encodeAll (ms : List Bytes) : wire.encodeAll ms = (ms.map frame).flatten := by
  rw [Codec.encodeAll, List.flatMap_def]; rfl

/-- What is left after the frames of a stream is short of 8 bytes, or good and short of its body, or
malformed. -/
theorem split_rest_cases {b r : Bytes} {ms : List Bytes} (h : wire.Split b ms r) :
    r.length < HEADER_LEN ∨ (GoodHeader r ∧ r.length < HEADER_LEN + lengthField r) ∨
      (HEADER_LEN ≤ r.length ∧ ¬ GoodHeader r) := by
  by_cases h8 : r.length < HEADER_LEN
  · exact .inl h8
  · by_cases hg : GoodHeader r
    · refine .inr (.inl ⟨hg, Nat.lt_of_not_le ?_⟩)
      intro hb
      exact h.stop _ _ (wireFront_frame.2
        ⟨⟨by rw [length_slice hb]; have := hg.2; omega, by rw [length_slice hb]; have := hg.2; omega⟩,
          eq_frame_append hg hb⟩)
    · exact .inr (.inr ⟨by omega, hg⟩)

end KnotLink
