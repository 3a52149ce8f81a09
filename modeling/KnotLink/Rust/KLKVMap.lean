import KnotLink.Lib.KeyValue
/-!
# `KvMapExt` of the Rust SDK (klkvmap.rs)

A `HashMap` of strings: `entries` lists its entries in the order `iter` meets them, which may be any.
-/
namespace KnotLink.Rust
open Lib

abbrev KLKVMap := Dict (List Char) (List Char)

namespace KLKVMap

/-- `serialize` (klkvmap.rs:16-21). -/
def serialize (self : KLKVMap) : List Char :=
  ";".toList.intercalate (self.entries.map fun (k, v) => k ++ "=".toList ++ v)

/-- The body of the loop (klkvmap.rs:25-30). -/
def deserializePair (self : KLKVMap) (pair : List Char) : KLKVMap :=
  let parts := splitMax "=".toList 1 pair -- `splitn(2, '=')`: two parts, one cut
  match parts with
  | [k, v] => self.insert k v
  | _ => self

/-- `deserialize` (klkvmap.rs:23-31). -/
def deserialize (self : KLKVMap) (s : List Char) : KLKVMap :=
  (s.splitOn ';').foldl deserializePair self.clear

/-- `get_value` (klkvmap.rs:33-35). -/
def getValue (self : KLKVMap) (key : List Char) : Option (List Char) := self.get? key

theorem serialize_eq (m : KLKVMap) : serialize m = KeyValue.write '=' ';' m.entries := by
  have h : (fun (k, v) => k ++ "=".toList ++ v) = KeyValue.assign '=' := by
    funext ⟨k, v⟩
    simp [KeyValue.assign]
  rw [serialize, h]
  rfl

theorem deserializePair_eq (m : KLKVMap) (pair : List Char) :
    deserializePair m pair = m.insertAll (cut? ['='] pair).toList := by
  unfold deserializePair splitMax
  rw [show "=".toList = ['='] by decide]
  cases cut? ['='] pair with
  | none => rfl
  | some e => rfl

theorem deserialize_eq (m : KLKVMap) (s : List Char) : deserialize m s = KeyValue.read '=' ';' s :=
  KeyValue.foldl_segments deserializePair_eq Dict.empty _

end KLKVMap
end KnotLink.Rust
