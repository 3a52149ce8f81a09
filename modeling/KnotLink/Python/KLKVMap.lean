import KnotLink.Lib.KeyValue
import KnotLink.Python.Text
/-!
# `KLKVMap` of the Python SDK (kludf.py)

A `dict` of strings with its entries in insertion order; the format is the one of `Lib.KeyValue` at `=`
and `;`.
-/
namespace KnotLink.Python
open Lib

abbrev KLKVMap := Dict PyStr PyStr

namespace KLKVMap

/-- `=` and `;`. -/
def EQ : PyChar := .scalar '='
def SEP : PyChar := .scalar ';'

/-- `serialize` (kludf.py:12-17). -/
def serialize (self : KLKVMap) : PyStr :=
  (str ";").intercalate (self.entries.map fun (key, value) => key ++ str "=" ++ value)

/-- The body of the loop (kludf.py:26-29). -/
def deserializePair (self : KLKVMap) (pair : PyStr) : KLKVMap :=
  match splitMax (str "=") 1 pair with
  | [key, value] => self.insert key value
  | _ => self

/-- `deserialize` (kludf.py:19-29): clear, then pair by pair. -/
def deserialize (self : KLKVMap) (keyValueString : PyStr) : KLKVMap :=
  (keyValueString.splitOn SEP).foldl deserializePair self.clear

/-- `get` (kludf.py:31-37). -/
def get (self : KLKVMap) (key : PyStr) (defaultVal : PyStr := str "") : PyStr := (self.get? key).getD defaultVal

theorem serialize_eq (m : KLKVMap) : serialize m = KeyValue.write EQ SEP m.entries := by
  have h : (fun (key, value) => key ++ str "=" ++ value) = KeyValue.assign EQ := by
    funext ⟨key, value⟩
    simp [KeyValue.assign, EQ, str, text]
  rw [serialize, h]
  rfl

theorem deserializePair_eq (m : KLKVMap) (pair : PyStr) :
    deserializePair m pair = m.insertAll (cut? [EQ] pair).toList := by
  unfold deserializePair splitMax
  rw [show str "=" = [EQ] by decide]
  cases cut? [EQ] pair with
  | none => rfl
  | some e => rfl

theorem deserialize_eq (m : KLKVMap) (s : PyStr) : deserialize m s = KeyValue.read EQ SEP s :=
  KeyValue.foldl_segments deserializePair_eq Dict.empty _

end KLKVMap
end KnotLink.Python
