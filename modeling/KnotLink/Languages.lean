import KnotLink.OutgoingMessages
import KnotLink.SentFrames
import KnotLink.CSharp.SendFrames
import KnotLink.Java.Querier
import KnotLink.Js.Querier
import KnotLink.Python.Channels
import KnotLink.Subscribers
/-!
# The SDKs side by side

The senders and the queriers of all SDKs make one packet of a text, their subscribers and responsers register with one
key, and within the limit their writers make one frame of a message (`emitt_eq`, `query_eq`, `register_eq`,
`written_eq`). `Language.subscribed` is what a
subscriber hands to its application, in the text type of its language.
-/
namespace KnotLink
open Lib

/-- `APPID-ID`. -/
def channel (APPID ID : List Char) : List Char := APPID ++ "-".toList ++ ID

/-- A signal or a question; the ids are set and, in C#, not empty (SignalSender.cs:36-42). -/
structure Packet where
  APPID : List Char
  ID : List Char
  data : List Char
  deriving DecidableEq, Repr

/-- Its bytes in every SDK (`Language.emitt_eq`, `Language.query_eq`). -/
def Packet.bytes (p : Packet) : Bytes :=
  Utf8.encode (channel p.APPID p.ID) ++ Python.DELIMITER ++ Utf8.encode p.data

/-! ## Packets -/

namespace Java

/-- The `s_data` of `emitt` (SignalSender.java:35-47), as `sendData` encodes it. -/
def SignalSender.emitt (appID signalID data : List Char) : Bytes :=
  let s_key := appID ++ "-".toList ++ signalID ++ "&*&".toList
  let s_data := s_key ++ data
  Utf8.encode s_data

end Java

namespace Js

/-- The `sData` of `__emitt` (SignalSender.js:30-42). -/
def SignalSender.emitt (APPID SignalID data : List Char) : Bytes :=
  let data := Utf8.encode data
  let sKey := APPID ++ "-".toList ++ SignalID ++ "&*&".toList
  let sKeyBytes := Utf8.encode sKey
  sKeyBytes ++ data

end Js

namespace CSharp

/-- What `EmitAsync` of three strings (SignalSender.cs:44-48) hands to `SendAsync`, as that encodes it. -/
def SignalSender.emitAsync (appId signalId data : List Char) : Bytes :=
  let sKey := appId ++ "-".toList ++ signalId ++ "&*&".toList
  Utf8.encode (sKey ++ data)

/-- The packet of `SendQuery` (OpenSocketQuerier.cs:123-133), as `SendAsync` encodes it. -/
def OpenSocketQuerier.packet (appId openSocketId question : List Char) : Bytes :=
  Utf8.encode (appId ++ "-".toList ++ openSocketId ++ "&*&".toList ++ question)

/-- What `SendAsync` writes that nothing disturbs (TcpClient.cs:64-94). -/
def written (payload : Bytes) : Bytes :=
  if (SendCall.enter payload).isOver then [] else [Stage.magic, .length, .payload].flatMap (Stage.bytes payload)

end CSharp

namespace PyQt
open Python

/-- The `s_data` of `__emitt` (SignalSender.py:20-32): Python's. -/
def SignalSender.sData (APPID SignalID data : PyStr) : Option Bytes :=
  Python.SignalSender.sData (some APPID) (some SignalID) data

/-- The `s_data` of `_query_a` (OpenSocketQuerier.py:52-62), the same again. -/
def OpenSocketQuerier.sData (APPID OpenSocketID data : PyStr) : Option Bytes :=
  Python.SignalSender.sData (some APPID) (some OpenSocketID) data

end PyQt

inductive Language where
  | python
  | pyqt
  | qt
  | java
  | js
  | cpp
  | csharp
  | rust
  deriving DecidableEq, Repr

namespace Language

/-- What the sender of an SDK hands to its client; nothing behind an exception. -/
def emitt (p : Packet) : Language → Option Bytes
  | .python => Python.SignalSender.sData (some (Python.text p.APPID)) (some (Python.text p.ID)) (Python.text p.data)
  | .pyqt => PyQt.SignalSender.sData (Python.text p.APPID) (Python.text p.ID) (Python.text p.data)
  | .qt => some (Qt.SignalSender.emitt p.APPID p.ID (Utf8.encode p.data))
  | .java => some (Java.SignalSender.emitt p.APPID p.ID p.data)
  | .js => some (Js.SignalSender.emitt p.APPID p.ID p.data)
  | .cpp => some (Cpp.SignalSender.emitt (Utf8.encode p.APPID) (Utf8.encode p.ID) (Utf8.encode p.data))
  | .csharp => some (CSharp.SignalSender.emitAsync p.APPID p.ID p.data)
  | .rust => some (Rust.SignalSender.emit p.APPID p.ID p.data)

/-- What the querier of an SDK hands to its client. -/
def query (p : Packet) : Language → Option Bytes
  | .python =>
    (Python.queryMessage (some (Python.text p.APPID)) (some (Python.text p.ID)) (Python.text p.data)).toOption
  | .pyqt => PyQt.OpenSocketQuerier.sData (Python.text p.APPID) (Python.text p.ID) (Python.text p.data)
  | .qt => some (Qt.OpenSocketQuerier.packet p.APPID p.ID (Utf8.encode p.data))
  | .java => some (Utf8.encode (Java.OpenSocketQuerier.buildPacket ⟨p.APPID, p.ID⟩ p.data))
  | .js => some (Js.OpenSocketQuerier.packet (some p.APPID) (some p.ID) (Utf8.encode p.data))
  | .cpp => some (Cpp.OpenSocketQuerier.packet ⟨Utf8.encode p.APPID, Utf8.encode p.ID⟩ (Utf8.encode p.data))
  | .csharp => some (CSharp.OpenSocketQuerier.packet p.APPID p.ID p.data)
  | .rust => some (Rust.OpenSocketQuerier.full p.data p.APPID p.ID)

/-- What a subscriber or a responser of an SDK registers with: `s_key_bytes` (SignalSubscriber.py:21-23), `sKeyBytes`
(SignalSubscriber.js:22-24), `s_key` (SignalSubscriber.java:50, SignalSubscriber.hpp:41, signalsubscriber.cpp:24), `key`
(SignalSubscriber.cs:43), `reg` (signal_subscriber.rs:21). -/
def register (APPID ID : List Char) : Language → Option Bytes
  | .python | .pyqt => Python.sKeyBytes (Python.text APPID) (Python.text ID)
  | .cpp => some (Utf8.encode APPID ++ ascii "-" ++ Utf8.encode ID)
  | .qt | .java | .js | .csharp | .rust => some (Utf8.encode (APPID ++ "-".toList ++ ID))

/-- What a client of an SDK writes of a message, connected by a socket that takes all of it; `behind` is the memory
behind a C++ string. -/
def written (behind : Bytes → Bytes) (m : Bytes) : Language → Bytes
  | .python => (Python.TcpClient.fresh.sendData m .ok).1.sent
  | .pyqt => (PyQt.TcpClient.sendData (⟨true, [], [], ()⟩ : QtSocket.TcpClient Unit) m).written.flatten
  | .qt => (Qt.TcpClient.sendData (⟨true, [], [], ()⟩ : QtSocket.TcpClient Unit) m).written.flatten
  | .java => (Java.Writer.sendData ⟨.connected, some []⟩ m .ok).1.written
  | .js => (Js.Writer.sendData ⟨.start, []⟩ m).1.written
  | .cpp => Cpp.Senders.packet behind m
  | .csharp => CSharp.written m
  | .rust => Rust.packMessage m

/-- What an application gets of a message. -/
def Text : Language → Type
  | .python | .pyqt => Python.PyStr
  | .cpp => Bytes
  | .qt | .java | .js | .csharp | .rust => List Char

def ofChars (cs : List Char) : (l : Language) → l.Text
  | .python | .pyqt => Python.text cs
  | .cpp => Utf8.encode cs
  | .qt | .java | .js | .csharp | .rust => cs

/-- The subscriber of an SDK on a stream; the callback is set between the two parts of it, in Rust at any time. -/
def subscribed (fromUtf8 : Bytes → List Char) (before after : List Bytes) : (l : Language) → List l.Text
  | .python => (Python.SignalSubscriber.onStream before after).calls
  | .pyqt => (PyQt.SignalSubscriber.onStream before after).receivedData.calls
  | .qt => (Qt.SignalSubscriber.onStream fromUtf8 before after).receivedData.calls
  | .java => (Java.SignalSubscriber.onStream true before after).calls
  | .js => (Js.SignalSubscriber.onStream before after).calls
  | .cpp => (Cpp.SignalSubscriber.onStream before after).calls
  | .csharp => (CSharp.SignalSubscriber.onStream (fun _ => ⟨.live, false⟩) none before after).calls
  | .rust => Rust.SignalSubscriber.onStream (before ++ after)

/-- The subscriber keeps what comes before the application has a callback. -/
def keepsEarly : Language → Bool
  | .rust => true
  | .python | .pyqt | .qt | .java | .js | .cpp | .csharp => false

variable {behind : Bytes → Bytes}

theorem dash_encode : ascii "-" = Utf8.encode "-".toList := by decide

/-- **One packet for a signal.** -/
theorem emitt_eq (p : Packet) (l : Language) :
    l.emitt p = some p.bytes := by
  have hdash : Python.encodeUtf8 (Python.str "-") = some (Utf8.encode "-".toList) := Python.encodeUtf8_text _
  have hkey : Python.encodeUtf8 (Python.text p.APPID ++ Python.str "-" ++ Python.text p.ID ++ Python.str "&*&") =
      some (Utf8.encode (channel p.APPID p.ID) ++ Python.DELIMITER) := by
    rw [Python.str, Python.str, ← Python.text_append, ← Python.text_append, ← Python.text_append,
      Python.encodeUtf8_text, Utf8.encode_append, Python.delimiter_encode]
    rfl
  cases l with
  | python | pyqt =>
    simp only [emitt, PyQt.SignalSender.sData, Python.SignalSender.sData, Python.encodeUtf8_text, Python.format, hkey]
    rfl
  | qt => simp [emitt, Qt.SignalSender.emitt, Packet.bytes, channel, Python.delimiter_encode]
  | java => simp [emitt, Java.SignalSender.emitt, Packet.bytes, channel, Python.delimiter_encode]
  | js => simp [emitt, Js.SignalSender.emitt, Packet.bytes, channel, Python.delimiter_encode]
  | cpp => simp [emitt, Cpp.SignalSender.emitt, Packet.bytes, channel, Python.DELIMITER, dash_encode]
  | csharp => simp [emitt, CSharp.SignalSender.emitAsync, Packet.bytes, channel, Python.delimiter_encode]
  | rust => simp [emitt, Rust.SignalSender.emit, Packet.bytes, channel, Python.delimiter_encode]

/-- One packet for a question. -/
theorem query_eq (p : Packet) (l : Language) : l.query p = some p.bytes := by
  cases l with
  | python =>
    have hok := Python.queryMessage_eq_ok.2 (emitt_eq p .python)
    rw [query, hok]
    rfl
  | pyqt => exact emitt_eq p .pyqt
  | qt => exact emitt_eq p .qt
  | java => simp [query, Java.OpenSocketQuerier.buildPacket, Packet.bytes, channel, Python.delimiter_encode]
  | js =>
    simp [query, Js.OpenSocketQuerier.packet, Js.OpenSocketQuerier.template, Packet.bytes, channel,
      Python.delimiter_encode]
  | cpp => simp [query, Cpp.OpenSocketQuerier.packet, Packet.bytes, channel, Python.DELIMITER, dash_encode]
  | csharp => simp [query, CSharp.OpenSocketQuerier.packet, Packet.bytes, channel, Python.delimiter_encode]
  | rust => simp [query, Rust.OpenSocketQuerier.full, Packet.bytes, channel, Python.delimiter_encode]

/-- One key for a channel. -/
theorem register_eq (APPID ID : List Char) (l : Language) :
    l.register APPID ID = some (Utf8.encode (channel APPID ID)) := by
  have hkey : Python.sKeyBytes (Python.text APPID) (Python.text ID) = some (Utf8.encode (channel APPID ID)) := by
    rw [Python.sKeyBytes, Python.str, ← Python.text_append, ← Python.text_append, Python.encodeUtf8_text]
    rfl
  cases l with
  | python | pyqt => exact hkey
  | cpp => simp [register, channel, dash_encode]
  | qt | java | js | csharp | rust => rfl

/-- One frame for a message within the limit. -/
theorem written_eq {m : Bytes} (h : m.length ≤ MAX_MSG_SIZE) (l : Language) : l.written behind m = frame m := by
  have hlen : ¬ m.length > MAX_MSG_SIZE := by omega
  cases l with
  | python =>
    have hconnected : Python.TcpClient.fresh.connected = true := rfl
    have hsent := Python.TcpClient.sendData_ok hconnected h
    rw [written, hsent]
    rfl
  | pyqt => simp [written, PyQt.TcpClient.sendData, PyQt.TcpClient.writeWithLengthPrefix, hlen, frame]
  | qt => simp [written, Qt.TcpClient.sendData, Qt.TcpClient.writeWithLengthPrefix, frame]
  | java =>
    rw [written, Java.Writer.sendData_taken rfl h]
    rfl
  | js =>
    rw [written, Js.Writer.sendData_ok rfl h]
    rfl
  | cpp => exact Cpp.Senders.packet_eq (Nat.lt_of_le_of_lt h (by decide)) behind
  | csharp =>
    simp [written, CSharp.written, CSharp.SendCall.enter, CSharp.SendCall.isOver, hlen, CSharp.Stage.bytes, frame]
  | rust => exact Rust.packMessage_eq m

/-- **What a subscriber hands on of texts**: all of them, or those that come when the callback is set. -/
theorem subscribed_eq {fromUtf8 : Bytes → List Char} (hfrom : Qt.Decodes fromUtf8)
    {before after out : List Bytes} (hne : ∀ c ∈ before ++ after, c ≠ []) (hout : ∀ m ∈ out, Admissible m)
    (hcut : (before ++ after).flatten = wire.encodeAll out) {texts : List (List Char)}
    (htexts : out.filter isMessage = texts.map Utf8.encode) (l : Language)
    (hspared : l = .csharp → CSharp.ReadLoop.CutsSpareBodies out (before ++ after))
    (hplain : l = .qt → ∀ cs ∈ texts, Qt.Plain cs) :
    l.subscribed fromUtf8 before after =
      (if l.keepsEarly then texts else texts.drop (messages before.flatten).length).map fun cs => l.ofChars cs := by
  have hall : messages (before ++ after).flatten = texts.map Utf8.encode := by
    rw [← htexts]
    exact messages_split (hcut ▸ Codec.split_encodeAll (F := wire) hout)
  have hlate : laterMessages before after = (texts.drop (messages before.flatten).length).map Utf8.encode := by
    rw [laterMessages, hall, List.map_drop]
  have hreplace (ts : List (List Char)) : (ts.map Utf8.encode).map Utf8.decodeReplace = ts := by
    simp [Function.comp_def, Utf8.decodeReplace_encode]
  have hpython (ts : List (List Char)) : (ts.map Utf8.encode).map Python.decodeUtf8Replace = ts.map Python.text := by
    rw [List.map_map]
    exact List.map_congr_left fun cs _ => Python.decodeUtf8Replace_encode (Python.encodeUtf8_text cs)
  cases l with
  | python =>
    exact (Python.SignalSubscriber.calls_onStream hne).trans (hlate ▸ hpython _)
  | pyqt =>
    have hgood : ∀ m ∈ texts.map Utf8.encode, Python.decodeUtf8 m ≠ none := by
      intro m hm
      obtain ⟨cs, -, rfl⟩ := List.mem_map.1 hm
      rw [Python.decodeUtf8_encode (Python.encodeUtf8_text cs)]
      simp
    have hserved : PyQt.SignalSubscriber.served (texts.map Utf8.encode) = texts.map Utf8.encode := by
      have := PyQt.SignalSubscriber.served_eq hgood []
      rwa [List.append_nil, PyQt.SignalSubscriber.served, List.append_nil] at this
    have hdecode (ts : List (List Char)) : (ts.map Utf8.encode).filterMap Python.decodeUtf8 = ts.map Python.text := by
      rw [List.filterMap_map, ← List.filterMap_eq_map]
      exact List.filterMap_congr fun cs _ => Python.decodeUtf8_encode (Python.encodeUtf8_text cs)
    have hslots := congrArg (fun s => s.receivedData.calls) (PyQt.SignalSubscriber.onStream_eq hne)
    refine hslots.trans ?_
    dsimp only
    rw [hall, hserved, ← List.map_drop, hdecode]
    rfl
  | qt =>
    have hslots := congrArg (fun s => s.receivedData.calls) (Qt.SignalSubscriber.onStream_eq fromUtf8 hne)
    refine hslots.trans ?_
    dsimp only
    rw [hlate, List.map_map]
    exact List.map_congr_left fun cs hcs => hfrom cs (hplain rfl cs (List.mem_of_mem_drop hcs))
  | java =>
    refine Java.SignalSubscriber.calls_onStream.trans ?_
    rw [hlate, hreplace]
    exact (List.map_id _).symm
  | js =>
    refine Js.SignalSubscriber.calls_onStream.trans ?_
    rw [hlate, hreplace]
    exact (List.map_id _).symm
  | cpp => exact (Cpp.SignalSubscriber.calls_onStream hne).trans hlate
  | csharp =>
    refine (CSharp.SignalSubscriber.calls_onStream (fun _ => rfl) hout hne hcut (hspared rfl)).trans ?_
    rw [hlate, hreplace]
    exact (List.map_id _).symm
  | rust =>
    refine (Rust.SignalSubscriber.onStream_eq hne).trans ?_
    have hvalid : ∀ m ∈ texts.map Utf8.encode, ∃ cs, m = Utf8.encode cs := by
      intro m hm
      obtain ⟨cs, -, rfl⟩ := List.mem_map.1 hm
      exact ⟨cs, rfl⟩
    rw [hall, filterMap_decodeStrict_eq_iff.2 hvalid, hreplace]
    exact (List.map_id texts).symm

end Language
end KnotLink
