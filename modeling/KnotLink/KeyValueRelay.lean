import KnotLink.KeyValueAgreement
import Mathlib.Data.Set.List
/-!
# A map passed on from SDK to SDK

A program serializes its map, a program with another SDK deserializes the text into a map of its own and serializes
that, and so on. Each map is looped over in whatever order it likes, and each target may hold anything before.

`Hop`: one such step. Over the characters it is a step of `KeyValue.Passes` (`hop_sim`), so the last program's `get`
answers as the first program's map would exactly if no key holds `=` or `;` and no value holds `;`
(`relayed_get_iff`).
-/
namespace KnotLink
open Lib

/-- The SDKs that have a `KLKVMap`. -/
inductive MapSdk where
  | python
  | cpp
  | qt
  | csharp
  | rust

namespace MapSdk

def Letter : MapSdk → Type
  | python => Python.PyChar
  | cpp => UInt8
  | qt => UInt16
  | csharp => UInt16
  | rust => Char

instance (sdk : MapSdk) : DecidableEq sdk.Letter :=
  match sdk with
  | python => inferInstanceAs (DecidableEq Python.PyChar)
  | cpp => inferInstanceAs (DecidableEq UInt8)
  | qt => inferInstanceAs (DecidableEq UInt16)
  | csharp => inferInstanceAs (DecidableEq UInt16)
  | rust => inferInstanceAs (DecidableEq Char)

abbrev KLKVMap (sdk : MapSdk) := Dict (List sdk.Letter) (List sdk.Letter)

def encoding : (sdk : MapSdk) → Encoding Char sdk.Letter
  | python => codePoints
  | cpp => .utf8
  | qt => .utf16
  | csharp => .utf16
  | rust => .letters (f := id) fun _ _ h => h

/-- A text as the SDK's strings hold it. -/
def text (sdk : MapSdk) (s : List Char) : List sdk.Letter := sdk.encoding.encode s

def serialize : (sdk : MapSdk) → sdk.KLKVMap → List sdk.Letter
  | python => Python.KLKVMap.serialize
  | cpp => Cpp.KLKVMap.serialize
  | qt => Qt.KLKVMap.serialize
  | csharp => CSharp.KLKVMap.serialize
  | rust => Rust.KLKVMap.serialize

def deserialize : (sdk : MapSdk) → sdk.KLKVMap → List sdk.Letter → sdk.KLKVMap
  | python => Python.KLKVMap.deserialize
  | cpp => Cpp.KLKVMap.deserialize
  | qt => Qt.KLKVMap.deserialize
  | csharp => CSharp.KLKVMap.deserialize
  | rust => Rust.KLKVMap.deserialize

/-- `get`; in Rust the caller puts the default behind `get_value`. -/
def get : (sdk : MapSdk) → sdk.KLKVMap → List sdk.Letter → List sdk.Letter → List sdk.Letter
  | python => fun self key defaultVal => Python.KLKVMap.get self key defaultVal
  | cpp => fun self key defaultVal => Cpp.KLKVMap.get self key defaultVal
  | qt => fun self key defaultVal => Qt.KLKVMap.get self key defaultVal
  | csharp => fun self key defaultVal => CSharp.KLKVMap.get self key defaultVal
  | rust => fun self key defaultVal => (Rust.KLKVMap.getValue self key).getD defaultVal

def eq : (sdk : MapSdk) → sdk.Letter
  | python => Python.KLKVMap.EQ
  | cpp => Cpp.KLKVMap.EQ
  | qt => Qt.KLKVMap.EQ
  | csharp => CSharp.KLKVMap.EQ
  | rust => '='

def sep : (sdk : MapSdk) → sdk.Letter
  | python => Python.KLKVMap.SEP
  | cpp => Cpp.KLKVMap.SEP
  | qt => Qt.KLKVMap.SEP
  | csharp => CSharp.KLKVMap.SEP
  | rust => ';'

variable {sdk : MapSdk}

theorem mark_eq : sdk.encoding.Mark '=' sdk.eq := by
  cases sdk with
  | python => exact Encoding.mark_letters (fun _ _ h => Python.PyChar.scalar.inj h) '='
  | cpp => exact Encoding.mark_utf8 (c := '=') (by decide)
  | qt => exact Encoding.mark_utf16 (c := '=') (by decide)
  | csharp => exact Encoding.mark_utf16 (c := '=') (by decide)
  | rust => exact Encoding.mark_letters (fun _ _ h => h) '='

theorem mark_sep : sdk.encoding.Mark ';' sdk.sep := by
  cases sdk with
  | python => exact Encoding.mark_letters (fun _ _ h => Python.PyChar.scalar.inj h) ';'
  | cpp => exact Encoding.mark_utf8 (c := ';') (by decide)
  | qt => exact Encoding.mark_utf16 (c := ';') (by decide)
  | csharp => exact Encoding.mark_utf16 (c := ';') (by decide)
  | rust => exact Encoding.mark_letters (fun _ _ h => h) ';'

theorem serialize_eq (d : sdk.KLKVMap) : sdk.serialize d = KeyValue.write sdk.eq sdk.sep d.entries := by
  cases sdk with
  | python => exact Python.KLKVMap.serialize_eq d
  | cpp => exact Cpp.KLKVMap.serialize_eq d
  | qt => exact Qt.KLKVMap.serialize_eq d
  | csharp => exact CSharp.KLKVMap.serialize_eq d
  | rust => exact Rust.KLKVMap.serialize_eq d

theorem deserialize_eq (target : sdk.KLKVMap) (s : List sdk.Letter) :
    sdk.deserialize target s = KeyValue.read sdk.eq sdk.sep s := by
  cases sdk with
  | python => exact Python.KLKVMap.deserialize_eq target s
  | cpp => exact Cpp.KLKVMap.deserialize_eq target s
  | qt => exact Qt.KLKVMap.deserialize_eq target s
  | csharp => exact CSharp.KLKVMap.deserialize_eq target s
  | rust => exact Rust.KLKVMap.deserialize_eq target s

theorem get_eq (d : sdk.KLKVMap) (key defaultVal : List sdk.Letter) :
    sdk.get d key defaultVal = (d.get? key).getD defaultVal := by
  cases sdk with
  | python => rfl
  | cpp => exact Cpp.KLKVMap.get_eq d key defaultVal
  | qt => rfl
  | csharp => exact CSharp.KLKVMap.get_eq d key defaultVal
  | rust => rfl

end MapSdk

/-! ## A map and its texts in an SDK -/

variable {sdk next last : MapSdk} {m : Dict (List Char) (List Char)}

/-- The SDK's map holds the entries of `m`. -/
def MapSdk.Holds (sdk : MapSdk) (d : sdk.KLKVMap) (m : Dict (List Char) (List Char)) : Prop :=
  IsEncoded sdk.text m d

theorem IsEncoded.get? {β : Type} [DecidableEq β] {E : Encoding Char β} {d : Dict (List β) (List β)}
    (h : IsEncoded E.encode m d) (key : List Char) : d.get? (E.encode key) = (m.get? key).map E.encode := by
  ext value
  rw [h, Option.map_eq_some_iff]
  constructor
  · rintro ⟨k, v, hget, hk, rfl⟩
    obtain rfl := Encoding.encode_injective hk
    exact ⟨v, hget, rfl⟩
  · rintro ⟨v, hget, rfl⟩
    exact ⟨key, v, hget, rfl, rfl⟩

/-- Whatever order the map is looped over in is an order of `m`. -/
theorem IsEncoded.entries {β : Type} [DecidableEq β] {E : Encoding Char β} {d : Dict (List β) (List β)}
    (h : IsEncoded E.encode m d) :
    ∃ order : Dict (List Char) (List Char), order.Same m ∧
      d.entries = order.entries.map (Prod.map E.encode E.encode) := by
  have hpre : ∀ e ∈ d.entries, e ∈ Set.range (Prod.map E.encode E.encode) := by
    intro e he
    obtain ⟨k, v, -, hk, hv⟩ := (h e.1 e.2).1 (Dict.get?_eq_some.2 he)
    exact ⟨(k, v), Prod.ext hk.symm hv.symm⟩
  obtain ⟨es, hes⟩ : ∃ es : List (List Char × List Char), es.map (Prod.map E.encode E.encode) = d.entries := by
    rw [← Set.mem_range, Set.range_list_map]
    exact hpre
  have hnodup : (es.map Prod.fst).Nodup := by
    apply List.Nodup.of_map E.encode
    have hd := d.nodup
    rw [← hes, List.map_map] at hd
    rw [List.map_map]
    exact hd
  refine ⟨⟨es, hnodup⟩, fun k => ?_, hes.symm⟩
  ext v
  have hd : (k, v) ∈ es ↔ d.get? (E.encode k) = some (E.encode v) := by
    rw [Dict.get?_eq_some, ← hes]
    exact (List.mem_map_of_injective (Encoding.encode_injective.prodMap Encoding.encode_injective)).symm
  rw [Dict.get?_eq_some, hd, h.get?, Option.map_eq_some_iff]
  constructor
  · rintro ⟨w, hw, hv⟩
    rwa [← Encoding.encode_injective hv]
  · exact fun hv => ⟨v, hv, rfl⟩

theorem MapSdk.Holds.serialize {d : sdk.KLKVMap} (h : sdk.Holds d m) :
    ∃ order : Dict (List Char) (List Char), order.Same m ∧
      sdk.serialize d = sdk.text (KeyValue.write '=' ';' order.entries) := by
  obtain ⟨order, hsame, hentries⟩ := IsEncoded.entries h
  refine ⟨order, hsame, ?_⟩
  rw [MapSdk.serialize_eq, hentries]
  exact Encoding.write_encode MapSdk.mark_eq MapSdk.mark_sep _

theorem MapSdk.holds_deserialize (target : sdk.KLKVMap) (s : List Char) :
    sdk.Holds (sdk.deserialize target (sdk.text s)) (KeyValue.read '=' ';' s) := by
  rw [MapSdk.deserialize_eq]
  exact isEncoded_read MapSdk.mark_eq MapSdk.mark_sep s

/-! ## From SDK to SDK -/

/-- A program's map. -/
abbrev HeldMap := (sdk : MapSdk) × sdk.KLKVMap

/-- `d` is looped over as `order` lists it; the next program deserializes the text. -/
inductive Hop : HeldMap → HeldMap → Prop
  | pass {sdk next : MapSdk} {d : sdk.KLKVMap} (order : sdk.KLKVMap) (hsame : order.Same d) (s : List Char)
      (hs : sdk.serialize order = sdk.text s) (target : next.KLKVMap) :
      Hop ⟨sdk, d⟩ ⟨next, next.deserialize target (next.text s)⟩

theorem MapSdk.Holds.order {d order : sdk.KLKVMap} (h : sdk.Holds d m) (hsame : order.Same d) : sdk.Holds order m :=
  fun key value => by rw [hsame key]; exact h key value

/-- A hop passes the map on. -/
theorem hop_sim {a b : HeldMap} (hop : Hop a b) (h : a.1.Holds a.2 m) :
    ∃ r, KeyValue.Passes '=' ';' m r ∧ b.1.Holds b.2 r := by
  obtain ⟨order, hsame, s, hs, target⟩ := hop
  obtain ⟨order', hsame', hs'⟩ := (h.order hsame).serialize
  obtain rfl : s = KeyValue.write '=' ';' order'.entries := Encoding.encode_injective (hs.symm.trans hs')
  exact ⟨_, ⟨order', hsame', rfl⟩, MapSdk.holds_deserialize target _⟩

theorem hops_sim {a b : HeldMap} (hops : Relation.TransGen Hop a b) (h : a.1.Holds a.2 m) :
    ∃ r, Relation.TransGen (KeyValue.Passes '=' ';') m r ∧ b.1.Holds b.2 r := by
  induction hops with
  | single hop =>
    obtain ⟨r, hr, hb⟩ := hop_sim hop h
    exact ⟨r, .single hr, hb⟩
  | tail _ hop ih =>
    obtain ⟨r, hr, hb⟩ := ih
    obtain ⟨r', hr', hc⟩ := hop_sim hop hb
    exact ⟨r', hr.tail hr', hc⟩

/-- `get` answers for every key and default as `m` would exactly if the map is `m`. -/
theorem MapSdk.Holds.get_iff {d : sdk.KLKVMap} {r : Dict (List Char) (List Char)} (h : sdk.Holds d r) :
    (∀ key defaultVal, sdk.get d (sdk.text key) (sdk.text defaultVal) = sdk.text ((m.get? key).getD defaultVal)) ↔
      r.Same m := by
  have hget : ∀ key defaultVal, sdk.get d (sdk.text key) (sdk.text defaultVal) =
      sdk.text ((r.get? key).getD defaultVal) := by
    intro key defaultVal
    rw [MapSdk.get_eq]
    have := IsEncoded.get? h key
    unfold MapSdk.text
    rw [this]
    cases r.get? key with
    | none => rfl
    | some v => rfl
  simp only [hget]
  constructor
  · intro hall key
    have hd : ∀ defaultVal, (r.get? key).getD defaultVal = (m.get? key).getD defaultVal :=
      fun defaultVal => Encoding.encode_injective (hall key defaultVal)
    -- a default that is no value tells a missing key from one with a value
    cases hr : r.get? key with
    | none =>
      cases hm : m.get? key with
      | none => rfl
      | some v =>
        have := hd ('=' :: v)
        rw [hr, hm] at this
        exact absurd this (List.cons_ne_self _ _)
    | some v =>
      cases hm : m.get? key with
      | none =>
        have := hd ('=' :: v)
        rw [hr, hm] at this
        exact absurd this.symm (List.cons_ne_self _ _)
      | some w =>
        have := hd []
        rw [hr, hm] at this
        exact congrArg some this
  · intro hsame key defaultVal
    rw [hsame key]

/-- **What comes through any chain of SDKs.** After one hop or more, in whatever orders the maps were looped over
and whatever the targets held, the last program's `get` answers for every key and every default as the first
program's map would exactly if no key holds `=` or `;` and no value holds `;`; and there is always a text to pass
on. -/
theorem relayed_get_iff {d : sdk.KLKVMap} {e : last.KLKVMap} (hd : sdk.Holds d m)
    (hops : Relation.TransGen Hop ⟨sdk, d⟩ ⟨last, e⟩) :
    ((∀ key defaultVal, last.get e (last.text key) (last.text defaultVal) =
        last.text ((m.get? key).getD defaultVal)) ↔ KeyValue.Clean '=' ';' m.entries) ∧
      ∀ order : last.KLKVMap, order.Same e → ∃ s, last.serialize order = last.text s := by
  obtain ⟨r, hr, he⟩ := hops_sim hops hd
  constructor
  · rw [MapSdk.Holds.get_iff he]
    exact KeyValue.passed_iff (by decide) hr
  · intro order hsame
    obtain ⟨order', -, hs⟩ := (MapSdk.Holds.order he hsame).serialize
    exact ⟨_, hs⟩

/-- From Python through C++ to Rust. -/
theorem relayed_get_iff_three :
    let s := "k=a=b".toList
    let m := KeyValue.read '=' ';' s
    let e := MapSdk.rust.deserialize Dict.empty (MapSdk.rust.text s)
    ((∀ key defaultVal, MapSdk.rust.get e (MapSdk.rust.text key) (MapSdk.rust.text defaultVal) =
        MapSdk.rust.text ((m.get? key).getD defaultVal)) ↔ KeyValue.Clean '=' ';' m.entries) ∧
      ∀ order : MapSdk.rust.KLKVMap, order.Same e → ∃ s, MapSdk.rust.serialize order = MapSdk.rust.text s := by
  intro s m e
  have hpython : MapSdk.python.Holds (MapSdk.python.deserialize Dict.empty (MapSdk.python.text s)) m :=
    MapSdk.holds_deserialize Dict.empty s
  have hcpp : Hop ⟨.python, MapSdk.python.deserialize Dict.empty (MapSdk.python.text s)⟩
      ⟨.cpp, MapSdk.cpp.deserialize Dict.empty (MapSdk.cpp.text s)⟩ :=
    .pass _ (fun _ => rfl) s (by decide) Dict.empty
  have hrust : Hop ⟨.cpp, MapSdk.cpp.deserialize Dict.empty (MapSdk.cpp.text s)⟩ ⟨.rust, e⟩ :=
    .pass _ (fun _ => rfl) s (by rw [MapSdk.serialize_eq, MapSdk.deserialize_eq]; decide) Dict.empty
  exact relayed_get_iff hpython (.tail (.single hcpp) hrust)

end KnotLink
