import KnotLink.Lib.KeyValue
import KnotLink.Lib.Loop
import KnotLink.Frame
/-!
# `KLKVMap` of the C++ SDK (KLUDF.hpp)

An `unordered_map` of byte strings: `entries` lists its entries in the order the loop meets them, which
may be any. `std::getline` yields no segment at the end of the stream, where the others yield an empty
one; both leave the map as it is.
-/
namespace KnotLink.Cpp
open Lib

abbrev KLKVMap := Dict Bytes Bytes

namespace KLKVMap

/-- `'='` and `';'`. -/
def EQ : UInt8 := 0x3D
def SEP : UInt8 := 0x3B

/-- `serialize` (KLUDF.hpp:38-47). -/
def serialize (self : KLKVMap) : Bytes :=
  (self.entries.foldl (fun (result, first) pair =>
    let result := if first then result else result ++ ascii ";"
    (result ++ (pair.1 ++ ascii "=" ++ pair.2), false)) ([], true)).1

/-- `std::getline(ss, pair, ';')` on what is left in the stream: the pair and what is left then. -/
def getline (rest : Bytes) : Option (Bytes × Bytes) :=
  if rest = [] then none
  else match cut? [SEP] rest with
    | none => some (rest, [])
    | some (pair, rest) => some (pair, rest)

/-- The body of the loop (KLUDF.hpp:60-66). -/
def deserializePair (self : KLKVMap) (pair : Bytes) : KLKVMap :=
  if pair = [] then self
  else
    match indexOf? [EQ] pair with
    | none => self
    | some eqPos => self.insert (pair.take eqPos) (pair.drop (eqPos + 1))

theorem getline_length {rest pair rest' : Bytes} (h : getline rest = some (pair, rest')) :
    rest'.length < rest.length := by
  unfold getline at h
  split at h
  · cases h
  · rename_i hne
    split at h
    · cases h
      exact List.length_pos_of_ne_nil hne
    · rename_i hcut
      cases h
      obtain ⟨rfl, -⟩ := cut?_singleton.1 hcut
      rw [List.length_append, List.length_cons]
      omega

/-- `while (std::getline(ss, pair, ';'))` (KLUDF.hpp:59-67). -/
def deserializeLoop : Body (KLKVMap × Bytes) KLKVMap where
  turn s :=
    match getline s.2 with
    | none => .leave s.1
    | some (pair, rest) => .again (deserializePair s.1 pair, rest)
  measure s := s.2.length
  decreases {s s'} h := by
    split at h
    · cases h
    · rename_i hg
      cases h
      exact getline_length hg

/-- `deserialize` (KLUDF.hpp:53-68). -/
def deserialize (self : KLKVMap) (kvString : Bytes) : KLKVMap :=
  if kvString = [] then self.clear else deserializeLoop.run (self.clear, kvString)

/-- `get` (KLUDF.hpp:76-82). -/
def get (self : KLKVMap) (key : Bytes) (defaultVal : Bytes := ascii "") : Bytes :=
  match self.get? key with
  | some second => second
  | none => defaultVal

theorem get_eq (m : KLKVMap) (key defaultVal : Bytes) : get m key defaultVal = (m.get? key).getD defaultVal := by
  unfold get
  cases m.get? key with
  | none => rfl
  | some second => rfl

/-- Once `first` is down, every entry comes with its separator. -/
theorem foldl_serialize (result : Bytes) (es : List (Bytes × Bytes)) :
    (es.foldl (fun (result, first) pair =>
      let result := if first then result else result ++ ascii ";"
      (result ++ (pair.1 ++ ascii "=" ++ pair.2), false)) (result, false)).1 =
      result ++ es.flatMap fun e => SEP :: KeyValue.assign EQ e := by
  induction es generalizing result with
  | nil => simp
  | cons e es ih =>
    have hsep : ascii ";" = [SEP] := by decide
    have heq : ascii "=" = [EQ] := by decide
    rw [List.foldl_cons]
    simp only [Bool.false_eq_true, if_false]
    rw [ih, hsep, heq]
    simp [KeyValue.assign]

theorem serialize_eq (m : KLKVMap) : serialize m = KeyValue.write EQ SEP m.entries := by
  unfold serialize
  cases m.entries with
  | nil => rfl
  | cons e es =>
    have heq : ascii "=" = [EQ] := by decide
    rw [List.foldl_cons, KeyValue.write_cons]
    simp only [if_true]
    rw [foldl_serialize, heq]
    simp [KeyValue.assign]

theorem deserializePair_eq (m : KLKVMap) (pair : Bytes) :
    deserializePair m pair = m.insertAll (cut? [EQ] pair).toList := by
  unfold deserializePair
  split
  · rename_i h
    rw [h, cut?_nil (by simp)]
    rfl
  · unfold cut?
    cases indexOf? [EQ] pair with
    | none => rfl
    | some eqPos => rfl

/-- What a call of `getline` takes off the stream is its first segment. -/
theorem getline_entries {rest pair rest' : Bytes} (h : getline rest = some (pair, rest')) :
    KeyValue.entriesOf EQ SEP rest = (cut? [EQ] pair).toList ++ KeyValue.entriesOf EQ SEP rest' := by
  unfold getline at h
  split at h
  · cases h
  · split at h
    · rename_i hcut
      cases h
      rw [KeyValue.entriesOf_of_none hcut]
      simp [KeyValue.entriesOf, cut?_nil]
    · rename_i hcut
      cases h
      exact KeyValue.entriesOf_of_some hcut

theorem getline_eq_none {rest : Bytes} (h : getline rest = none) : rest = [] := by
  unfold getline at h
  split at h
  · assumption
  · split at h <;> cases h

/-- Segment by segment, what the loop puts in is what the text holds. -/
theorem deserializeLoop_eq (s : KLKVMap × Bytes) :
    deserializeLoop.run s = s.1.insertAll (KeyValue.entriesOf EQ SEP s.2) := by
  induction s using Body.run_induct (b := deserializeLoop) with
  | hleave s r h =>
    rw [Body.run_leave h]
    cases hg : getline s.2 with
    | none =>
      simp only [deserializeLoop, hg] at h
      cases h
      rw [getline_eq_none hg]
      rfl
    | some pr => simp [deserializeLoop, hg] at h
  | hagain s s' h ih =>
    rw [Body.run_again h, ih]
    cases hg : getline s.2 with
    | none => simp [deserializeLoop, hg] at h
    | some pr =>
      simp only [deserializeLoop, hg] at h
      cases h
      rw [deserializePair_eq, getline_entries hg, Dict.insertAll_append]

theorem deserialize_eq (m : KLKVMap) (s : Bytes) : deserialize m s = KeyValue.read EQ SEP s := by
  unfold deserialize
  split
  · rename_i h
    rw [h]
    rfl
  · exact deserializeLoop_eq _

end KLKVMap
end KnotLink.Cpp
