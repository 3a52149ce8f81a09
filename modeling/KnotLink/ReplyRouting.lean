import KnotLink.OutgoingMessages
import KnotLink.Responsers
/-!
# Replies find their question

A reply is `key&*&data`, and whoever reads it takes what is in front of the first `&*&` as the key. The delimiter
overlaps itself, so a key that ends in `&*` makes it begin two characters early. `parse_eq_some` says which messages
Python parses to which key: hence a reply comes back to its key exactly if the key neither holds `&*&` nor ends in
`&*`, and no responser ever takes another key from a request (`reply_routing`).
-/
namespace KnotLink
open Lib

namespace Python.OpenSocketResponser

/-- The `s_data` of `sendBack` (OpenSocketResponser.py:36-38). -/
def sData (data key : PyStr) : Option Bytes :=
  match encodeUtf8 (key ++ str "&*&") with
  | none => none
  | some sKeyBytes =>
    match encodeUtf8 data with
    | none => none
    | some data => some (sKeyBytes ++ data)

/-- The `key` and the `payload` of `_internal_data_recv` (OpenSocketResponser.py:44-46). -/
def parse (data : Bytes) : Option (PyStr × Bytes) :=
  match indexOf? DELIMITER data with
  | none => none
  | some keyEnd =>
    match decodeUtf8 (data.take keyEnd) with
    | none => none
    | some key => some (key, data.drop (keyEnd + 3))

theorem sendBack_sData (s : OpenSocketResponser) (data key : PyStr) (net : TcpClient.SendAll) :
    s.sendBack data key net = match sData data key with
      | none => (s, .error .unicodeEncode)
      | some sData =>
        match s.KLresponser.sendData sData net with
        | (c, .error e) => ({ s with KLresponser := c }, .error (.value e))
        | (c, .ok ()) => ({ s with KLresponser := c }, .ok ()) := by
  unfold sendBack sData
  cases encodeUtf8 (key ++ str "&*&") with
  | none => rfl
  | some sKeyBytes =>
    cases encodeUtf8 data with
    | none => rfl
    | some data => rfl

theorem internalDataRecv_parse (s : OpenSocketResponser) (data : Bytes) :
    s.internalDataRecv data = match parse data with
      | none => s
      | some (key, payload) =>
        if payload = [] then s else { s with dataQueue := s.dataQueue ++ [(decodeUtf8Replace payload, key)] } := by
  unfold internalDataRecv parse
  cases indexOf? DELIMITER data with
  | none => rfl
  | some keyEnd =>
    cases hkey : decodeUtf8 (data.take keyEnd) with
    | none => simp only [hkey]
    | some key => simp only [hkey]

theorem sData_eq_some {data key : PyStr} {m : Bytes} : sData data key = some m ↔
    ∃ k d, encodeUtf8 key = some k ∧ encodeUtf8 data = some d ∧ m = k ++ DELIMITER ++ d := by
  unfold sData
  constructor
  · intro h
    split at h
    · cases h
    · rename_i sKeyBytes hkey
      split at h
      · cases h
      · rename_i d hdata
        cases h
        obtain ⟨k, p, hk, hp, rfl⟩ := encodeUtf8_append_eq_some.1 hkey
        obtain rfl : DELIMITER = p := Option.some.inj (encodeUtf8_delimiter.symm.trans hp)
        exact ⟨k, d, hk, hdata, rfl⟩
  · rintro ⟨k, d, hk, hd, rfl⟩
    rw [encodeUtf8_append hk encodeUtf8_delimiter, hd]

/-- **Which messages parse to which key.** -/
theorem parse_eq_some {m : Bytes} {key : PyStr} {payload : Bytes} : parse m = some (key, payload) ↔
    Key key ∧ ∃ k, encodeUtf8 key = some k ∧ m = k ++ DELIMITER ++ payload := by
  have hparse : parse m = some (key, payload) ↔
      ∃ k, decodeUtf8 k = some key ∧ cut? DELIMITER m = some (k, payload) := by
    unfold parse cut?
    cases indexOf? DELIMITER m with
    | none => simp
    | some keyEnd =>
      simp only [Option.map_some, Option.some.injEq, Prod.mk.injEq, show DELIMITER.length = 3 from rfl]
      constructor
      · intro h
        split at h
        · cases h
        · rename_i key' hkey
          cases h
          exact ⟨_, hkey, rfl, rfl⟩
      · rintro ⟨k, hk, rfl, rfl⟩
        simp only [hk]
  rw [hparse]
  constructor
  · rintro ⟨k, hk, hcut⟩
    have hk := decodeUtf8_eq_some.1 hk
    obtain ⟨rfl, hin, hend⟩ := (cut?_delimiter (by decide)).1 hcut
    exact ⟨(key_iff_bytes hk).2 ⟨hin, hend⟩, k, hk, rfl⟩
  · rintro ⟨hkey, k, hk, rfl⟩
    obtain ⟨hin, hend⟩ := (key_iff_bytes hk).1 hkey
    exact ⟨k, decodeUtf8_eq_some.2 hk, (cut?_delimiter (by decide)).2 ⟨rfl, hin, hend⟩⟩

/-- What a message puts into the queue. -/
theorem dataQueue_internalDataRecv {s : OpenSocketResponser} {m : Bytes} {payload key : PyStr} :
    (s.internalDataRecv m).dataQueue = s.dataQueue ++ [(payload, key)] ↔
      ∃ d, parse m = some (key, d) ∧ d ≠ [] ∧ decodeUtf8Replace d = payload := by
  rw [internalDataRecv_parse]
  cases hm : parse m with
  | none => simp
  | some e =>
    obtain ⟨key', d⟩ := e
    simp only [Option.some.injEq, Prod.mk.injEq]
    by_cases hd : d = []
    · rw [if_pos hd]
      constructor
      · intro h
        simp at h
      · rintro ⟨d', ⟨-, rfl⟩, hne, -⟩
        exact absurd hd hne
    · rw [if_neg hd, List.append_right_inj, List.cons.injEq, Prod.mk.injEq]
      constructor
      · rintro ⟨⟨hpayload, hkey⟩, -⟩
        exact ⟨d, ⟨hkey, rfl⟩, hd, hpayload⟩
      · rintro ⟨d', ⟨hkey, rfl⟩, -, hpayload⟩
        exact ⟨⟨hpayload, hkey⟩, rfl⟩

end Python.OpenSocketResponser

namespace Java

/-- The `packet` of `sendBack` (OpenSocketResponser.java:63-66). -/
def packet (data : Bytes) (questionID : List Char) : Bytes := Utf8.encode (questionID ++ "&*&".toList) ++ data

end Java

namespace Qt

/-- `dataRecv` (opensocketresponser.cpp:30-48): the key and what `receivedData` carries. -/
def dataRecv (fromUtf8 : Bytes → List Char) (data : Bytes) : Option (List Char × List Char) :=
  let sData := fromUtf8 data
  match split delimiter sData with
  | key :: _ :: _ => some (key, sData.drop (key.length + delimiter.length))
  | _ => none

end Qt

/-- How Java and Qt cut a text. -/
theorem cut?_key {cs key payload : List Char} :
    cut? delimiter cs = some (key, payload) ↔ Python.Key (Python.text key) ∧ cs = key ++ delimiter ++ payload := by
  rw [show delimiter = ['&', '*', '&'] by decide, cut?_delimiter (by decide), Python.key_text, and_comm]
  rfl

theorem Java.dataRecv_eq_some {cs key payload : List Char} :
    Java.dataRecv true cs = some (key, payload) ↔ cut? delimiter cs = some (key, payload) := by
  cases h : cut? delimiter cs with
  | none => simp [Java.dataRecv_none h]
  | some e => rw [Java.dataRecv_some h]

theorem Qt.dataRecv_eq_some {fromUtf8 : Bytes → List Char} {m : Bytes} {key payload : List Char} :
    Qt.dataRecv fromUtf8 m = some (key, payload) ↔ cut? delimiter (fromUtf8 m) = some (key, payload) := by
  unfold Qt.dataRecv
  cases h : cut? delimiter (fromUtf8 m) with
  | none => simp only [split, splitMax_of_none h]
  | some e =>
    obtain ⟨t, r⟩ := e
    obtain ⟨piece, pieces, hsplit⟩ := split_of_some (by decide) h
    have hdrop : (fromUtf8 m).drop (t.length + delimiter.length) = r := by
      rw [((cut?_eq_some_iff (by decide)).1 h).1]
      exact List.drop_left' (by simp)
    simp only [hsplit, hdrop]

/-- **A reply, which `sendBack` sends, parses back to its key and its data exactly if the key neither holds `&*&` nor
ends in `&*`**, and a key that was parsed from a request is always such a one, so that every reply to it parses back to
it. The same in Java and in Qt, where the message is decoded first; in Qt for plain texts. -/
theorem reply_routing {fromUtf8 : Bytes → List Char} (hfrom : Qt.Decodes fromUtf8) :
    (∀ (key data : Python.PyStr) (m : Bytes) (s : Python.OpenSocketResponser),
      Python.OpenSocketResponser.sData data key = some m →
      (∀ net, (s.sendBack data key net).1.KLresponser = (s.KLresponser.sendData m net).1) ∧
      (data ≠ [] → ((s.internalDataRecv m).dataQueue = s.dataQueue ++ [(data, key)] ↔ Python.Key key))) ∧
    (∀ (request : Bytes) (key : Python.PyStr) (payload : Bytes),
      Python.OpenSocketResponser.parse request = some (key, payload) → Python.Key key ∧
        ∀ data d, Python.encodeUtf8 data = some d → ∃ m, Python.OpenSocketResponser.sData data key = some m ∧
          Python.OpenSocketResponser.parse m = some (key, d)) ∧
    (∀ key data : List Char,
      (Java.dataRecv true (Utf8.decodeReplace (Java.packet (Utf8.encode data) key)) = some (key, data) ↔
        Python.Key (Python.text key)) ∧
      (Qt.Plain (key ++ delimiter ++ data) →
        (Qt.dataRecv fromUtf8 (Qt.OpenSocketResponser.sendBack (Utf8.encode data) key) = some (key, data) ↔
          Python.Key (Python.text key)))) ∧
    (∀ (request : Bytes) (key payload : List Char),
      Java.dataRecv true (Utf8.decodeReplace request) = some (key, payload) ∨
        Qt.dataRecv fromUtf8 request = some (key, payload) → Python.Key (Python.text key)) := by
  refine ⟨fun key data m s hm => ⟨fun net => ?_, fun hdata => ?_⟩, fun request key payload h => ?_,
    fun key data => ⟨?_, fun hplain => ?_⟩, fun request key payload h => ?_⟩
  · simp only [Python.OpenSocketResponser.sendBack_sData, hm]
    split <;> rename_i hsent <;> rw [hsent]
  · obtain ⟨k, d, hk, hd, rfl⟩ := Python.OpenSocketResponser.sData_eq_some.1 hm
    rw [Python.OpenSocketResponser.dataQueue_internalDataRecv]
    constructor
    · rintro ⟨d', hparse, -, -⟩
      exact (Python.OpenSocketResponser.parse_eq_some.1 hparse).1
    · intro hkey
      refine ⟨d, Python.OpenSocketResponser.parse_eq_some.2 ⟨hkey, k, hk, rfl⟩, ?_, Python.decodeUtf8Replace_encode hd⟩
      exact fun hnil => hdata ((Python.encodeUtf8_nil_iff hd).1 hnil)
  · obtain ⟨hkey, k, hk, -⟩ := Python.OpenSocketResponser.parse_eq_some.1 h
    refine ⟨hkey, fun data d hd => ⟨k ++ Python.DELIMITER ++ d, ?_, ?_⟩⟩
    · exact Python.OpenSocketResponser.sData_eq_some.2 ⟨k, d, hk, hd, rfl⟩
    · exact Python.OpenSocketResponser.parse_eq_some.2 ⟨hkey, k, hk, rfl⟩
  · rw [Java.packet, ← Utf8.encode_append, Utf8.decodeReplace_encode, Java.dataRecv_eq_some, cut?_key]
    exact and_iff_left rfl
  · have hbytes : Qt.OpenSocketResponser.sendBack (Utf8.encode data) key =
        Utf8.encode (key ++ delimiter ++ data) := by
      rw [Utf8.encode_append, Utf8.encode_append, delimiter, ← Python.delimiter_encode]
      rfl
    rw [hbytes, Qt.dataRecv_eq_some, hfrom _ hplain, cut?_key]
    exact and_iff_left rfl
  · rw [Java.dataRecv_eq_some, Qt.dataRecv_eq_some] at h
    rcases h with h | h <;> exact (cut?_key.1 h).1

/-- The data may hold the delimiter; a key that ends in `&*` is lost. -/
theorem reply_routing_overlap :
    (∃ m, Python.OpenSocketResponser.sData (Python.str "a&*&b") (Python.str "1&") = some m ∧
      (Python.OpenSocketResponser.internalDataRecv ⟨.fresh, []⟩ m).dataQueue =
        [(Python.str "a&*&b", Python.str "1&")]) ∧
    ∃ m, Python.OpenSocketResponser.sData (Python.str "a") (Python.str "1&*") = some m ∧
      (Python.OpenSocketResponser.internalDataRecv ⟨.fresh, []⟩ m).dataQueue ≠ [(Python.str "a", Python.str "1&*")] := by
  constructor
  · have hm : Python.OpenSocketResponser.sData (Python.str "a&*&b") (Python.str "1&") = some (ascii "1&&*&a&*&b") := by
      decide
    exact ⟨_, hm, (((reply_routing Qt.decodes_decodeReplace).1 _ _ _ ⟨.fresh, []⟩ hm).2 (by decide)).2 (by decide)⟩
  · have hm : Python.OpenSocketResponser.sData (Python.str "a") (Python.str "1&*") = some (ascii "1&*&*&a") := by
      decide
    refine ⟨_, hm, fun h => ?_⟩
    have hkey : Python.Key (Python.str "1&*") :=
      (((reply_routing Qt.decodes_decodeReplace).1 _ _ _ ⟨.fresh, []⟩ hm).2 (by decide)).1 h
    revert hkey
    decide

end KnotLink
