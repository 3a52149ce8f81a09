import KnotLink.Lib.Text
import KnotLink.Frame
/-!
# Python strings and the routing delimiter

A Python `str` may hold lone surrogates, which `encode("utf-8")` refuses; what `decode` returns never
does. The routing parts of the messages are told apart by the delimiter `&*&`, found in the bytes:
`Key.bytes` takes what is known of a key as a string to its bytes.
-/
namespace KnotLink.Python
open Lib

/-- A code point of a `str`. -/
inductive PyChar where
  | scalar (c : Char)
  | surrogate (n : Fin 0x800)
  deriving DecidableEq, Repr

abbrev PyStr := List PyChar

def PyChar.scalar? : PyChar → Option Char
  | .scalar c => some c
  | .surrogate _ => none

/-- The `str` of a text without surrogates. -/
def text (cs : List Char) : PyStr := cs.map .scalar

/-- A string literal. -/
def str (s : String) : PyStr := text s.toList

/-- `s.encode("utf-8")`, or `UnicodeEncodeError`. -/
def encodeUtf8 (s : PyStr) : Option Bytes := (s.mapM PyChar.scalar?).map Utf8.encode

/-- `b.decode("utf-8")`, or `UnicodeDecodeError`. -/
def decodeUtf8 (b : Bytes) : Option PyStr := (Utf8.decodeStrict b).map text

/-- `b.decode("utf-8", errors="replace")`. -/
def decodeUtf8Replace (b : Bytes) : PyStr := text (Utf8.decodeReplace b)

/-- How an f-string shows an `Optional[str]`. -/
def format : Option PyStr → PyStr
  | none => str "None"
  | some s => s

theorem mapM_scalar? {s : PyStr} {cs : List Char} : s.mapM PyChar.scalar? = some cs ↔ s = text cs := by
  induction s generalizing cs with
  | nil => cases cs <;> simp [text]
  | cons c s ih =>
    cases c with
    | scalar c =>
      rw [List.mapM_cons]
      cases cs with
      | nil => cases s.mapM PyChar.scalar? <;> simp [PyChar.scalar?, text]
      | cons d ds =>
        have := @ih ds
        cases hm : s.mapM PyChar.scalar? <;> simp_all [PyChar.scalar?, text]
    | surrogate n =>
      rw [List.mapM_cons]
      cases cs <;> simp [PyChar.scalar?, text]

/-- What encodes is a text without surrogates. -/
theorem encodeUtf8_eq_some {s : PyStr} {b : Bytes} :
    encodeUtf8 s = some b ↔ ∃ cs, s = text cs ∧ Utf8.encode cs = b := by
  simp only [encodeUtf8, Option.map_eq_some_iff, mapM_scalar?]

theorem encodeUtf8_text (cs : List Char) : encodeUtf8 (text cs) = some (Utf8.encode cs) :=
  encodeUtf8_eq_some.2 ⟨cs, rfl, rfl⟩

theorem text_append (cs ds : List Char) : text (cs ++ ds) = text cs ++ text ds := List.map_append

theorem encodeUtf8_append {s t : PyStr} {b c : Bytes} (hs : encodeUtf8 s = some b) (ht : encodeUtf8 t = some c) :
    encodeUtf8 (s ++ t) = some (b ++ c) := by
  obtain ⟨cs, rfl, rfl⟩ := encodeUtf8_eq_some.1 hs
  obtain ⟨ds, rfl, rfl⟩ := encodeUtf8_eq_some.1 ht
  rw [← text_append, encodeUtf8_text, Utf8.encode_append]

theorem encodeUtf8_append_eq_some {s t : PyStr} {b : Bytes} :
    encodeUtf8 (s ++ t) = some b ↔ ∃ c d, encodeUtf8 s = some c ∧ encodeUtf8 t = some d ∧ b = c ++ d := by
  constructor
  · intro h
    obtain ⟨cs, hcs, rfl⟩ := encodeUtf8_eq_some.1 h
    obtain ⟨ds, es, rfl, rfl, rfl⟩ := List.map_eq_append_iff.1 hcs.symm
    exact ⟨_, _, encodeUtf8_text ds, encodeUtf8_text es, Utf8.encode_append ds es⟩
  · rintro ⟨c, d, hs, ht, rfl⟩
    exact encodeUtf8_append hs ht

/-- Decoding undoes encoding. -/
theorem decodeUtf8_encode {s : PyStr} {b : Bytes} (h : encodeUtf8 s = some b) : decodeUtf8 b = some s := by
  obtain ⟨cs, rfl, rfl⟩ := encodeUtf8_eq_some.1 h
  rw [decodeUtf8, Utf8.decodeStrict_encode]
  rfl

theorem decodeUtf8_eq_some {b : Bytes} {s : PyStr} : decodeUtf8 b = some s ↔ encodeUtf8 s = some b := by
  refine ⟨fun h => ?_, decodeUtf8_encode⟩
  obtain ⟨cs, hcs, rfl⟩ := Option.map_eq_some_iff.1 h
  rw [Utf8.decodeStrict_eq_some.1 hcs, encodeUtf8_text]

theorem decodeUtf8Replace_encode {s : PyStr} {b : Bytes} (h : encodeUtf8 s = some b) :
    decodeUtf8Replace b = s := by
  obtain ⟨cs, rfl, rfl⟩ := encodeUtf8_eq_some.1 h
  rw [decodeUtf8Replace, Utf8.decodeReplace_encode]

theorem encodeUtf8_nil_iff {s : PyStr} {b : Bytes} (h : encodeUtf8 s = some b) : b = [] ↔ s = [] := by
  obtain ⟨cs, rfl, rfl⟩ := encodeUtf8_eq_some.1 h
  cases cs with
  | nil => simp [text]
  | cons c cs => simp [text, String.utf8EncodeChar_ne_nil]

/-! ## The delimiter -/

/-- `b"&*&"`. -/
def DELIMITER : Bytes := ascii "&*&"

/-- A key that can be told from what follows the delimiter. -/
def Key (k : PyStr) : Prop := ¬ str "&*&" <:+: k ∧ ¬ str "&*" <:+ k

instance (k : PyStr) : Decidable (Key k) := inferInstanceAs (Decidable (_ ∧ _))

theorem delimiter_encode : DELIMITER = Utf8.encode "&*&".toList := by decide

theorem encodeUtf8_delimiter : encodeUtf8 (str "&*&") = some DELIMITER := by
  rw [str, encodeUtf8_text, delimiter_encode]

/-- The bytes of a key do not hide the delimiter, not even across their end. -/
theorem Key.bytes {k : PyStr} {b : Bytes} (h : Key k) (hb : encodeUtf8 k = some b) :
    ¬ DELIMITER <:+: b ∧ ¬ DELIMITER.take 2 <:+ b := by
  obtain ⟨cs, rfl, rfl⟩ := encodeUtf8_eq_some.1 hb
  constructor
  · rintro ⟨y, x, hyx⟩
    rw [delimiter_encode] at hyx
    obtain ⟨ds, es, rfl, -, -⟩ := Utf8.encode_infix (by simp) (by simp) hyx.symm
    apply h.1
    rw [text_append, text_append]
    exact ⟨text ds, text es, rfl⟩
  · rintro ⟨y, hy⟩
    have hp : DELIMITER.take 2 = Utf8.encode "&*".toList := by decide
    rw [hp, ← List.append_nil (y ++ _)] at hy
    obtain ⟨ds, es, rfl, -, hes⟩ := Utf8.encode_infix (by simp) (by simp) hy.symm
    have hnil : text es = [] := (encodeUtf8_nil_iff (encodeUtf8_text es)).1 hes
    apply h.2
    rw [text_append, hnil, List.append_nil, text_append]
    exact ⟨text ds, rfl⟩

theorem key_text {cs : List Char} : Key (text cs) ↔ ¬ "&*&".toList <:+: cs ∧ ¬ "&*".toList <:+ cs := by
  have hinj : Function.Injective PyChar.scalar := fun _ _ h => PyChar.scalar.inj h
  have hin : str "&*&" <:+: text cs ↔ "&*&".toList <:+: cs := by
    refine ⟨fun h => ?_, fun h => h.map _⟩
    obtain ⟨ds, hds, heq⟩ := List.infix_map_iff.1 h
    rwa [(List.map_inj_right hinj).1 heq]
  have hend : str "&*" <:+ text cs ↔ "&*".toList <:+ cs := List.suffix_map_iff_of_injective hinj
  rw [Key, hin, hend]

/-- A key can be told from its bytes. -/
theorem key_iff_bytes {k : PyStr} {b : Bytes} (hb : encodeUtf8 k = some b) :
    Key k ↔ ¬ DELIMITER <:+: b ∧ ¬ DELIMITER.take 2 <:+ b := by
  refine ⟨fun h => h.bytes hb, fun ⟨hin, hend⟩ => ?_⟩
  obtain ⟨cs, rfl, rfl⟩ := encodeUtf8_eq_some.1 hb
  refine key_text.2 ⟨?_, ?_⟩
  · rintro ⟨ds, es, rfl⟩
    apply hin
    rw [Utf8.encode_append, Utf8.encode_append, delimiter_encode]
    exact ⟨_, _, rfl⟩
  · rintro ⟨ds, rfl⟩
    apply hend
    rw [Utf8.encode_append]
    exact ⟨Utf8.encode ds, rfl⟩

/-- The first delimiter of a message is the one behind its key. -/
theorem Key.indexOf?_delimiter {k : PyStr} {b : Bytes} (h : Key k) (hb : encodeUtf8 k = some b) (d : Bytes) :
    indexOf? DELIMITER (b ++ DELIMITER ++ d) = some b.length := by
  obtain ⟨hin, hend⟩ := h.bytes hb
  exact Lib.indexOf?_delimiter (by decide) hin hend d

end KnotLink.Python
