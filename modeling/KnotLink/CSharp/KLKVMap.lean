import KnotLink.Lib.KeyValue
/-!
# `KLKVMap` of the C# SDK (KLUDF.cs)

A `Dictionary` of strings, which are UTF-16 code units: `entries` lists its entries in the order the loop meets
them, which may be any.
-/
namespace KnotLink.CSharp
open Lib

abbrev KLKVMap := Dict (List UInt16) (List UInt16)

namespace KLKVMap

/-- `'='` and `';'`. -/
def EQ : UInt16 := 0x3D
def SEP : UInt16 := 0x3B

/-- `Serialize` (KLUDF.cs:18-27). -/
def serialize (self : KLKVMap) : List UInt16 :=
  let pairs := self.entries.map fun kvp => kvp.1 ++ [EQ] ++ kvp.2
  [SEP].intercalate pairs

/-- The body of the loop (KLUDF.cs:34-41). -/
def deserializePair (self : KLKVMap) (pair : List UInt16) : KLKVMap :=
  let keyValue := splitMax [EQ] 1 pair -- `Split('=', 2)`: two parts, one cut
  match keyValue with
  | [key, value] => self.insert key value
  | _ => self

/-- `Deserialize` (KLUDF.cs:29-42). -/
def deserialize (self : KLKVMap) (keyValueString : List UInt16) : KLKVMap :=
  (keyValueString.splitOn SEP).foldl deserializePair self.clear

/-- `Get` (KLUDF.cs:44-48). -/
def get (self : KLKVMap) (key : List UInt16) (defaultVal : List UInt16 := []) : List UInt16 :=
  match self.get? key with
  | some value => value
  | none => defaultVal

theorem get_eq (m : KLKVMap) (key defaultVal : List UInt16) : get m key defaultVal = (m.get? key).getD defaultVal := by
  unfold get
  cases m.get? key with
  | none => rfl
  | some value => rfl

theorem serialize_eq (m : KLKVMap) : serialize m = KeyValue.write EQ SEP m.entries := by
  have h : (fun kvp : List UInt16 × List UInt16 => kvp.1 ++ [EQ] ++ kvp.2) = KeyValue.assign EQ := by
    funext kvp
    simp [KeyValue.assign]
  rw [serialize, h]
  rfl

theorem deserializePair_eq (m : KLKVMap) (pair : List UInt16) :
    deserializePair m pair = m.insertAll (cut? [EQ] pair).toList := by
  unfold deserializePair splitMax
  cases cut? [EQ] pair with
  | none => rfl
  | some e => rfl

theorem deserialize_eq (m : KLKVMap) (s : List UInt16) : deserialize m s = KeyValue.read EQ SEP s :=
  KeyValue.foldl_segments deserializePair_eq Dict.empty _

end KLKVMap
end KnotLink.CSharp
