import KnotLink.Python.KLKVMap
import KnotLink.Cpp.KLKVMap
import KnotLink.Rust.KLKVMap
/-!
# The key-value format across the SDKs

The three `KLKVMap` types write and read the one format of `Lib.KeyValue`, so `deserialize` undoes
`serialize` for the same maps in all of them. A map's `entries` are in the order its loop meets them:
every order of a map is a value of its own here, and `Same` compares maps without it.
-/
namespace KnotLink
open Lib

/-- **The round trip holds exactly for the maps without `=` or `;` in a key and `;` in a value**, whatever
the target held before. -/
theorem deserialize_serialize_iff :
    (∀ m target : Python.KLKVMap,
      (Python.KLKVMap.deserialize target (Python.KLKVMap.serialize m)).Same m ↔
        KeyValue.Clean Python.KLKVMap.EQ Python.KLKVMap.SEP m.entries) ∧
    (∀ m target : Cpp.KLKVMap,
      (Cpp.KLKVMap.deserialize target (Cpp.KLKVMap.serialize m)).Same m ↔
        KeyValue.Clean Cpp.KLKVMap.EQ Cpp.KLKVMap.SEP m.entries) ∧
    (∀ m target : Rust.KLKVMap,
      (Rust.KLKVMap.deserialize target (Rust.KLKVMap.serialize m)).Same m ↔
        KeyValue.Clean '=' ';' m.entries) := by
  refine ⟨fun m target => ?_, fun m target => ?_, fun m target => ?_⟩
  · rw [Python.KLKVMap.deserialize_eq, Python.KLKVMap.serialize_eq]
    exact KeyValue.read_write_iff (by decide) m
  · rw [Cpp.KLKVMap.deserialize_eq, Cpp.KLKVMap.serialize_eq]
    exact KeyValue.read_write_iff (by decide) m
  · rw [Rust.KLKVMap.deserialize_eq, Rust.KLKVMap.serialize_eq]
    exact KeyValue.read_write_iff (by decide) m

/-- A value may hold `=`, and key and value may be empty. -/
example : KeyValue.Clean '=' ';' [("k".toList, "a=b".toList), ([], [])] := by decide

end KnotLink
