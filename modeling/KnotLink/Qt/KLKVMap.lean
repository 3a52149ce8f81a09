import KnotLink.Lib.KeyValue
/-!
# `KLKVMap` of the Qt SDK (kludf.cpp)

A `QMap` of `QString`s, which are UTF-16 code units: `entries` lists its entries in the order a loop meets them.
In a `QMap` that is the order of the keys, which `insert` does not keep here: of what is read, the order says
nothing.
-/
namespace KnotLink.Qt
open Lib

abbrev QString := List UInt16

abbrev KLKVMap := Dict QString QString

namespace KLKVMap

/-- `'='` and `';'`. -/
def EQ : UInt16 := 0x3D
def SEP : UInt16 := 0x3B

/-- `serialize` (kludf.cpp:12-19). -/
def serialize (self : KLKVMap) : QString :=
  let pairs := self.entries.map fun it => it.1 ++ [EQ] ++ it.2
  [SEP].intercalate pairs

/-- The body of the loop (kludf.cpp:29-34). -/
def deserializePair (self : KLKVMap) (pair : QString) : KLKVMap :=
  if pair = [] then self
  else
    match indexOf? [EQ] pair with
    | none => self
    | some eqPos => self.insert (pair.take eqPos) (pair.drop (eqPos + 1))

/-- `deserialize` (kludf.cpp:23-35). -/
def deserialize (self : KLKVMap) (keyValueString : QString) : KLKVMap :=
  if keyValueString = [] then self.clear
  else (keyValueString.splitOn SEP).foldl deserializePair self.clear

/-- `get` (kludf.cpp:39-42). -/
def get (self : KLKVMap) (key : QString) (defaultVal : QString := []) : QString := (self.get? key).getD defaultVal

theorem serialize_eq (m : KLKVMap) : serialize m = KeyValue.write EQ SEP m.entries := by
  have h : (fun it : QString × QString => it.1 ++ [EQ] ++ it.2) = KeyValue.assign EQ := by
    funext it
    simp [KeyValue.assign]
  rw [serialize, h]
  rfl

theorem deserializePair_eq (m : KLKVMap) (pair : QString) :
    deserializePair m pair = m.insertAll (cut? [EQ] pair).toList := by
  unfold deserializePair
  split
  · rename_i h
    rw [h, cut?_nil (by simp)]
    rfl
  · unfold cut?
    cases indexOf? [EQ] pair with
    | none => rfl
    | some eqPos => rfl

theorem deserialize_eq (m : KLKVMap) (s : QString) : deserialize m s = KeyValue.read EQ SEP s := by
  unfold deserialize
  split
  · rename_i h
    rw [h]
    rfl
  · exact KeyValue.foldl_segments deserializePair_eq Dict.empty _

end KLKVMap
end KnotLink.Qt
