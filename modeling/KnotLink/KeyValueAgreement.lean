import KnotLink.Lib.Encoding
import KnotLink.CSharp.KLKVMap
import KnotLink.Cpp.KLKVMap
import KnotLink.Python.KLKVMap
import KnotLink.Qt.KLKVMap
import KnotLink.Rust.KLKVMap
/-!
# Any text, read by all SDKs

Python, C# and Rust split the text and each segment; C++ takes lines off a stream, which has no last empty one,
and skips empty segments; Qt splits and searches. All of them read what `Lib.KeyValue.read` reads, each in its own
alphabet: code points, bytes or UTF-16 units. So one text gives one map (`deserialize_agree`), and in Python, where
the entries keep their order, reading and writing a text once makes it one that stays as it is
(`deserialize_serialize_deserialize`).
-/
namespace KnotLink
open Lib

/-- `d` is `m` with its texts encoded. -/
def IsEncoded {β : Type} [DecidableEq β] (encode : List Char → List β) (m : Dict (List Char) (List Char))
    (d : Dict (List β) (List β)) : Prop :=
  ∀ key value, d.get? key = some value ↔ ∃ k v, m.get? k = some v ∧ key = encode k ∧ value = encode v

theorem isEncoded_read {β : Type} [DecidableEq β] {E : Encoding Char β} {eq sep : β} (heq : E.Mark '=' eq)
    (hsep : E.Mark ';' sep) (s : List Char) :
    IsEncoded E.encode (KeyValue.read '=' ';' s) (KeyValue.read eq sep (E.encode s)) := by
  intro key value
  rw [Dict.get?_eq_some, Encoding.entries_read_encode heq hsep, List.mem_map]
  constructor
  · rintro ⟨⟨k, v⟩, he, hkv⟩
    obtain ⟨rfl, rfl⟩ := Prod.mk.inj hkv
    exact ⟨k, v, Dict.get?_eq_some.2 he, rfl, rfl⟩
  · rintro ⟨k, v, hget, rfl, rfl⟩
    exact ⟨(k, v), Dict.get?_eq_some.1 hget, rfl⟩

/-- Python's code points. -/
def codePoints : Encoding Char Python.PyChar := .letters (f := .scalar) fun _ _ h => Python.PyChar.scalar.inj h

theorem encode_codePoints (s : List Char) : codePoints.encode s = Python.text s := Encoding.encode_letters _ s

/-- **All SDKs read the same map**, whatever their maps held before: its keys are the texts before the first `=` of
the segments between `;` that hold one, and the last such segment gives the value. In each SDK that is so for the
strings that are no text, too. -/
theorem deserialize_agree :
    (∀ (s : List Char) (python : Python.KLKVMap) (cpp : Cpp.KLKVMap) (qt : Qt.KLKVMap) (cs : CSharp.KLKVMap)
      (rust : Rust.KLKVMap),
      let m := Rust.KLKVMap.deserialize rust s
      (∀ k v, m.get? k = some v ↔ KeyValue.LastAssigned '=' ';' s k v) ∧
      IsEncoded Python.text m (Python.KLKVMap.deserialize python (Python.text s)) ∧
      IsEncoded Utf8.encode m (Cpp.KLKVMap.deserialize cpp (Utf8.encode s)) ∧
      IsEncoded Encoding.utf16.encode m (Qt.KLKVMap.deserialize qt (Encoding.utf16.encode s)) ∧
      IsEncoded Encoding.utf16.encode m (CSharp.KLKVMap.deserialize cs (Encoding.utf16.encode s))) ∧
    (∀ (m : Python.KLKVMap) (s k v : Python.PyStr), (Python.KLKVMap.deserialize m s).get? k = some v ↔
      KeyValue.LastAssigned Python.KLKVMap.EQ Python.KLKVMap.SEP s k v) ∧
    (∀ (m : Cpp.KLKVMap) (s k v : Bytes), (Cpp.KLKVMap.deserialize m s).get? k = some v ↔
      KeyValue.LastAssigned Cpp.KLKVMap.EQ Cpp.KLKVMap.SEP s k v) ∧
    (∀ (m : Qt.KLKVMap) (s k v : Qt.QString), (Qt.KLKVMap.deserialize m s).get? k = some v ↔
      KeyValue.LastAssigned Qt.KLKVMap.EQ Qt.KLKVMap.SEP s k v) ∧
    (∀ (m : CSharp.KLKVMap) (s k v : List UInt16), (CSharp.KLKVMap.deserialize m s).get? k = some v ↔
      KeyValue.LastAssigned CSharp.KLKVMap.EQ CSharp.KLKVMap.SEP s k v) := by
  refine ⟨fun s python cpp qt cs rust => ⟨fun k v => ?_, ?_, ?_, ?_, ?_⟩, fun m s k v => ?_, fun m s k v => ?_,
    fun m s k v => ?_, fun m s k v => ?_⟩
  · rw [Rust.KLKVMap.deserialize_eq]
    exact KeyValue.get?_read
  · rw [Rust.KLKVMap.deserialize_eq, Python.KLKVMap.deserialize_eq, ← funext encode_codePoints]
    exact isEncoded_read (Encoding.mark_letters _ '=') (Encoding.mark_letters _ ';') s
  · rw [Rust.KLKVMap.deserialize_eq, Cpp.KLKVMap.deserialize_eq]
    exact isEncoded_read (Encoding.mark_utf8 (c := '=') (by decide)) (Encoding.mark_utf8 (c := ';') (by decide)) s
  · rw [Rust.KLKVMap.deserialize_eq, Qt.KLKVMap.deserialize_eq]
    exact isEncoded_read (Encoding.mark_utf16 (c := '=') (by decide)) (Encoding.mark_utf16 (c := ';') (by decide)) s
  · rw [Rust.KLKVMap.deserialize_eq, CSharp.KLKVMap.deserialize_eq]
    exact isEncoded_read (Encoding.mark_utf16 (c := '=') (by decide)) (Encoding.mark_utf16 (c := ';') (by decide)) s
  · rw [Python.KLKVMap.deserialize_eq]
    exact KeyValue.get?_read
  · rw [Cpp.KLKVMap.deserialize_eq]
    exact KeyValue.get?_read
  · rw [Qt.KLKVMap.deserialize_eq]
    exact KeyValue.get?_read
  · rw [CSharp.KLKVMap.deserialize_eq]
    exact KeyValue.get?_read

/-- **A text is normal after one round** through a map, whatever the maps held before: it is read as the same
entries in the same order, and written as itself. -/
theorem deserialize_serialize_deserialize (s : Python.PyStr) (m m' m'' : Python.KLKVMap) :
    let normal := Python.KLKVMap.serialize (Python.KLKVMap.deserialize m s)
    (Python.KLKVMap.deserialize m' normal).entries = (Python.KLKVMap.deserialize m'' s).entries ∧
      Python.KLKVMap.serialize (Python.KLKVMap.deserialize m' normal) = normal := by
  have hread : Python.KLKVMap.deserialize m' (Python.KLKVMap.serialize (Python.KLKVMap.deserialize m s)) =
      KeyValue.read Python.KLKVMap.EQ Python.KLKVMap.SEP s := by
    rw [Python.KLKVMap.deserialize_eq, Python.KLKVMap.deserialize_eq, Python.KLKVMap.serialize_eq]
    exact KeyValue.read_write_read (by decide) s
  dsimp only
  rw [hread, Python.KLKVMap.deserialize_eq, Python.KLKVMap.deserialize_eq]
  exact ⟨rfl, rfl⟩

/-- A repeated key keeps its place and takes its last value; the rest is dropped. -/
example : Python.KLKVMap.serialize (Python.KLKVMap.deserialize Dict.empty (Python.str "b=1;;a=2=3;c;b=4;")) =
    Python.str "b=4;a=2=3" := by decide

end KnotLink
