import KnotLink.Lib.Split
import KnotLink.Python.Responser
/-!
# What a request says, SDK by SDK

A request is `questionID&*&payload`. Python finds the delimiter in the bytes, C++ too, Java and C# split
the text with a limit of two, PyQt (OpenSocketResponser.py:26) and JavaScript without one. `responsers_agree`:
all refuse a text without the delimiter and take the text in front of the first one as the question id and
all the text behind it as the payload. Python drops a request with an empty payload, and
the two splits without a limit are only promised to agree where the payload does not hold the delimiter.
-/
namespace KnotLink
open Lib

/-- `"&*&"`. -/
def delimiter : List Char := "&*&".toList

/-- The text is this question id in front of the first delimiter and this payload behind it. -/
def IsRequest (text questionID payload : List Char) : Prop :=
  text = questionID ++ delimiter ++ payload ∧
    ∀ t r, text = t ++ delimiter ++ r → questionID.length ≤ t.length

/-- What a responser that answers at once hands its handler, and the message it sends then. -/
structure Handled (τ : Type) where
  questionID : τ
  payload : τ
  response : τ
  deriving DecidableEq, Repr

namespace Js

/-- `_handleRequest` (OpenSocketResponser.js:39-56): the arguments of the `request` event. -/
def handleRequest (data : Bytes) : Option (List Char × List Char) :=
  let raw := Utf8.decodeReplace data
  match split delimiter raw with
  | [questionID, requestData] => some (questionID, requestData)
  | _ => none

end Js

namespace PyQt

/-- `UnicodeDecodeError`. -/
inductive DecodeError where
  | unicodeDecode
  deriving DecidableEq, Repr

/-- `dataRecv` (OpenSocketResponser.py:26-42): the key and what the two signals carry. -/
def dataRecv (data : Bytes) : Except DecodeError (Option (Python.PyStr × Python.PyStr)) :=
  match Python.decodeUtf8 data with
  | none => .error .unicodeDecode
  | some sData =>
    match split (Python.str "&*&") sData with
    | [key, tData] => .ok (some (key, tData))
    | _ => .ok none

end PyQt

namespace Java

/-- `dataRecv` (OpenSocketResponser.java:40-56): the key and the data the listener is called with. -/
def dataRecv (dataListener : Bool) (sData : List Char) : Option (List Char × List Char) :=
  match splitMax delimiter 1 sData with
  | [key, tData] => if dataListener then some (key, tData) else none
  | _ => none

end Java

namespace CSharp

/-- `InvalidOperationException`: the callback is not set. -/
inductive HandlerError where
  | invalidOperation
  deriving DecidableEq, Repr

/-- `HandleDataAsync` (OpenSocketResponser.cs:46-62). -/
def handleDataAsync (onQuestionAsync : Option (List Char → List Char)) (data : List Char) :
    Except HandlerError (Option (Handled (List Char))) :=
  match splitMax delimiter 1 data with
  | [questionId, payload] =>
    match onQuestionAsync with
    | none => .error .invalidOperation
    | some onQuestionAsync =>
      let reply := onQuestionAsync payload
      .ok (some ⟨questionId, payload, questionId ++ delimiter ++ reply⟩)
  | _ => .ok none

end CSharp

namespace Cpp

/-- `handleReceivedData` (OpenSocketResponser.hpp:51-65). -/
def handleReceivedData (onQuestionHandler : Option (Bytes → Bytes)) (data : Bytes) : Option (Handled Bytes) :=
  if data = heartbeatResponse then none
  else
    match indexOf? (ascii "&*&") data with
    | none => none
    | some pos =>
      let questionID := data.take pos
      let payload := data.drop (pos + 3)
      match onQuestionHandler with
      | none => none
      | some onQuestionHandler =>
        let reply := onQuestionHandler payload
        some ⟨questionID, payload, questionID ++ ascii "&*&" ++ reply⟩

end Cpp

/-! ## Each SDK on a text -/

section
variable {cs questionID payload : List Char}

theorem isRequest_iff : IsRequest cs questionID payload ↔ cut? delimiter cs = some (questionID, payload) :=
  (cut?_eq_some_iff (by simp [delimiter])).symm

theorem cut?_delimiter_bytes (cs : List Char) :
    cut? Python.DELIMITER (Utf8.encode cs) = (cut? delimiter cs).map fun e => (Utf8.encode e.1, Utf8.encode e.2) := by
  rw [Python.delimiter_encode]
  exact cut?_encode (by simp) (by simp) cs

theorem cut?_delimiter_text (cs : List Char) :
    cut? (Python.str "&*&") (Python.text cs) = (cut? delimiter cs).map fun e => (Python.text e.1, Python.text e.2) :=
  cut?_map (fun _ _ h => by cases h; rfl) delimiter cs

theorem split_delimiter_some (h : cut? delimiter cs = some (questionID, payload)) (hp : ¬ delimiter <:+: payload) :
    split delimiter cs = [questionID, payload] :=
  split_eq_pair (by simp [delimiter]) h ((cut?_eq_none_iff (by simp [delimiter])).2 hp)

namespace Python.OpenSocketResponser

theorem internalDataRecv_none (s : OpenSocketResponser) (h : cut? delimiter cs = none) :
    s.internalDataRecv (Utf8.encode cs) = s := by
  have hcut := cut?_delimiter_bytes cs
  rw [h, Option.map_none] at hcut
  unfold internalDataRecv
  rw [Option.map_eq_none_iff.1 hcut]

/-- An empty payload is dropped. -/
theorem internalDataRecv_some (s : OpenSocketResponser) (h : cut? delimiter cs = some (questionID, payload)) :
    s.internalDataRecv (Utf8.encode cs) =
      if payload = [] then s else { s with dataQueue := s.dataQueue ++ [(text payload, text questionID)] } := by
  have hcut := cut?_delimiter_bytes cs
  rw [h, Option.map_some] at hcut
  obtain ⟨keyEnd, hidx, heq⟩ := Option.map_eq_some_iff.1 hcut
  obtain ⟨hkey, hpay⟩ := Prod.mk.inj heq
  rw [show keyEnd + DELIMITER.length = keyEnd + 3 from rfl] at hpay
  unfold internalDataRecv
  rw [hidx]
  simp only [hkey, hpay, decodeUtf8_encode (encodeUtf8_text _), decodeUtf8Replace_encode (encodeUtf8_text _)]
  have hnil : Utf8.encode payload = [] ↔ payload = [] := by
    rw [encodeUtf8_nil_iff (encodeUtf8_text payload)]
    simp [text]
  simp only [hnil]

end Python.OpenSocketResponser

namespace Js

theorem handleRequest_none (h : cut? delimiter cs = none) : handleRequest (Utf8.encode cs) = none := by
  simp only [handleRequest, Utf8.decodeReplace_encode, split, splitMax_of_none h]

theorem handleRequest_some (h : cut? delimiter cs = some (questionID, payload)) (hp : ¬ delimiter <:+: payload) :
    handleRequest (Utf8.encode cs) = some (questionID, payload) := by
  simp only [handleRequest, Utf8.decodeReplace_encode, split_delimiter_some h hp]

end Js

namespace PyQt

theorem dataRecv_none (h : cut? delimiter cs = none) : dataRecv (Utf8.encode cs) = .ok none := by
  have hcut := cut?_delimiter_text cs
  rw [h, Option.map_none] at hcut
  simp only [dataRecv, Python.decodeUtf8_encode (Python.encodeUtf8_text cs), split, splitMax_of_none hcut]

theorem dataRecv_some (h : cut? delimiter cs = some (questionID, payload)) (hp : ¬ delimiter <:+: payload) :
    dataRecv (Utf8.encode cs) = .ok (some (Python.text questionID, Python.text payload)) := by
  have hcut := cut?_delimiter_text cs
  rw [h, Option.map_some] at hcut
  have hrest := cut?_delimiter_text payload
  rw [(cut?_eq_none_iff (by simp [delimiter])).2 hp, Option.map_none] at hrest
  have hsplit := split_eq_pair (by simp [Python.str, Python.text]) hcut hrest
  simp only [dataRecv, Python.decodeUtf8_encode (Python.encodeUtf8_text cs), hsplit]

end PyQt

namespace Java

theorem dataRecv_none (h : cut? delimiter cs = none) : dataRecv true cs = none := by
  simp only [dataRecv, splitMax_of_none h]

theorem dataRecv_some (h : cut? delimiter cs = some (questionID, payload)) :
    dataRecv true cs = some (questionID, payload) := by
  simp only [dataRecv, splitMax_one, h]
  rfl

end Java

namespace CSharp
variable (f : List Char → List Char)

theorem handleDataAsync_none (h : cut? delimiter cs = none) : handleDataAsync (some f) cs = .ok none := by
  simp only [handleDataAsync, splitMax_of_none h]

theorem handleDataAsync_some (h : cut? delimiter cs = some (questionID, payload)) :
    handleDataAsync (some f) cs = .ok (some ⟨questionID, payload, questionID ++ delimiter ++ f payload⟩) := by
  simp only [handleDataAsync, splitMax_one, h]

end CSharp

namespace Cpp
variable (f : Bytes → Bytes)

theorem handleReceivedData_none (h : cut? delimiter cs = none) :
    handleReceivedData (some f) (Utf8.encode cs) = none := by
  have hcut := cut?_delimiter_bytes cs
  rw [h, Option.map_none] at hcut
  unfold handleReceivedData
  split
  · rfl
  · rw [show ascii "&*&" = Python.DELIMITER from rfl, Option.map_eq_none_iff.1 hcut]

theorem handleReceivedData_some (h : cut? delimiter cs = some (questionID, payload)) :
    handleReceivedData (some f) (Utf8.encode cs) = some ⟨Utf8.encode questionID, Utf8.encode payload,
      Utf8.encode questionID ++ ascii "&*&" ++ f (Utf8.encode payload)⟩ := by
  have hcut := cut?_delimiter_bytes cs
  rw [h, Option.map_some] at hcut
  have hne : Utf8.encode cs ≠ heartbeatResponse := by
    intro heq
    rw [heq, show cut? Python.DELIMITER heartbeatResponse = none by decide] at hcut
    cases hcut
  obtain ⟨pos, hidx, heq⟩ := Option.map_eq_some_iff.1 hcut
  obtain ⟨hid, hpay⟩ := Prod.mk.inj heq
  rw [show pos + Python.DELIMITER.length = pos + 3 from rfl] at hpay
  unfold handleReceivedData
  rw [if_neg hne, show ascii "&*&" = Python.DELIMITER from rfl, hidx]
  simp only [hid, hpay]

end Cpp

/-- **All responsers refuse a text without the delimiter and hand over the parts around the first one
otherwise**: Java, C# and C++ always, Python unless the payload is empty (then it drops the request), PyQt
and JavaScript where the payload does not hold the delimiter again. -/
theorem responsers_agree (cs : List Char) (s : Python.OpenSocketResponser) (f : List Char → List Char)
    (g : Bytes → Bytes) :
    (¬ delimiter <:+: cs →
      s.internalDataRecv (Utf8.encode cs) = s ∧ PyQt.dataRecv (Utf8.encode cs) = .ok none ∧
      Js.handleRequest (Utf8.encode cs) = none ∧ Java.dataRecv true cs = none ∧
      CSharp.handleDataAsync (some f) cs = .ok none ∧ Cpp.handleReceivedData (some g) (Utf8.encode cs) = none) ∧
    (delimiter <:+: cs → ∃ questionID payload, IsRequest cs questionID payload ∧
      Java.dataRecv true cs = some (questionID, payload) ∧
      CSharp.handleDataAsync (some f) cs =
        .ok (some ⟨questionID, payload, questionID ++ delimiter ++ f payload⟩) ∧
      Cpp.handleReceivedData (some g) (Utf8.encode cs) =
        some ⟨Utf8.encode questionID, Utf8.encode payload,
          Utf8.encode questionID ++ ascii "&*&" ++ g (Utf8.encode payload)⟩ ∧
      s.internalDataRecv (Utf8.encode cs) =
        (if payload = [] then s
        else { s with dataQueue := s.dataQueue ++ [(Python.text payload, Python.text questionID)] }) ∧
      (¬ delimiter <:+: payload →
        PyQt.dataRecv (Utf8.encode cs) = .ok (some (Python.text questionID, Python.text payload)) ∧
        Js.handleRequest (Utf8.encode cs) = some (questionID, payload))) := by
  constructor
  · intro h
    have hcut : cut? delimiter cs = none := (cut?_eq_none_iff (by simp [delimiter])).2 h
    exact ⟨s.internalDataRecv_none hcut, PyQt.dataRecv_none hcut, Js.handleRequest_none hcut,
      Java.dataRecv_none hcut, CSharp.handleDataAsync_none f hcut, Cpp.handleReceivedData_none g hcut⟩
  · intro h
    obtain ⟨⟨questionID, payload⟩, hcut⟩ : ∃ e, cut? delimiter cs = some e := by
      rw [← Option.ne_none_iff_exists']
      exact fun hnone => (cut?_eq_none_iff (by simp [delimiter])).1 hnone h
    exact ⟨questionID, payload, isRequest_iff.2 hcut, Java.dataRecv_some hcut, CSharp.handleDataAsync_some f hcut,
      Cpp.handleReceivedData_some g hcut, s.internalDataRecv_some hcut,
      fun hp => ⟨PyQt.dataRecv_some hcut hp, Js.handleRequest_some hcut hp⟩⟩

/-- Java hands over an empty payload and one with the delimiter in it; Python drops the first, PyQt and
JavaScript refuse the second. -/
theorem responsers_disagree :
    (Java.dataRecv true "1&*&".toList = some ("1".toList, []) ∧
      Python.OpenSocketResponser.internalDataRecv ⟨Python.TcpClient.fresh, []⟩ (Utf8.encode "1&*&".toList) =
        ⟨Python.TcpClient.fresh, []⟩) ∧
    Java.dataRecv true "1&*&a&*&b".toList = some ("1".toList, "a&*&b".toList) ∧
    PyQt.dataRecv (Utf8.encode "1&*&a&*&b".toList) = .ok none ∧
    Js.handleRequest (Utf8.encode "1&*&a&*&b".toList) = none := by
  have hempty : cut? delimiter "1&*&".toList = some ("1".toList, []) := by decide
  refine ⟨⟨by decide, Python.OpenSocketResponser.internalDataRecv_some _ hempty⟩, by decide, ?_, ?_⟩
  · rw [PyQt.dataRecv, Python.decodeUtf8_encode (Python.encodeUtf8_text _)]
    decide
  · rw [Js.handleRequest, Utf8.decodeReplace_encode]
    decide

end
end KnotLink
