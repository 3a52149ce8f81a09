import KnotLink.Languages
import KnotLink.Lib.Merge
/-!
# Signals from senders to subscribers

Any number of senders, each with a connection of its own, one service, one subscriber; senders and subscribers of any
SDK. The service is not part of the sources. What its clients rely on (test_signal_subscribe_integration.py) is stated
of it: it reads the frames of its senders in some order that keeps the order of each, and passes to a subscriber what
stands behind the first delimiter of the packets with its key (`Service.Forwards`); heartbeat responses may come
anywhere between. `signals_delivered`: then the application gets the data of its channel, each once and in one order for
all senders, except that data which read `heartbeat_response` are taken for one. In C# the cuts have to spare the bodies,
and in Qt the data have to be plain.
-/
namespace KnotLink
open Lib

/-- The packet can be sent, and cut where its channel ends. -/
structure Packet.Sendable (p : Packet) : Prop where
  key : Python.Key (Python.text (channel p.APPID p.ID))
  data : p.data ≠ []
  length : p.bytes.length ≤ MAX_MSG_SIZE

theorem Packet.Sendable.admissible {p : Packet} (h : p.Sendable) : Admissible (Utf8.encode p.data) := by
  have hne : Utf8.encode p.data ≠ [] := by
    intro hnil
    exact h.data (List.map_eq_nil_iff.1 ((Python.encodeUtf8_nil_iff (Python.encodeUtf8_text p.data)).1 hnil))
  have hlen := h.length
  simp only [Packet.bytes, List.length_append] at hlen
  exact ⟨List.length_pos_iff.2 hne, by omega⟩

/-- What makes a client write: a signal or a question, or its heartbeat. -/
inductive ClientCall where
  | send (p : Packet)
  | heartbeat
  deriving DecidableEq, Repr

namespace ClientCall

def packet? : ClientCall → Option Packet
  | .send p => some p
  | .heartbeat => none

theorem packet?_eq_some {c : ClientCall} {p : Packet} : c.packet? = some p ↔ c = .send p := by
  cases c <;> simp [packet?]

/-- What is handed to the client; `make` is `emitt` or `query`. -/
def message (make : Packet → Language → Option Bytes) (l : Language) : ClientCall → Option Bytes
  | .send p => make p l
  | .heartbeat => some KnotLink.heartbeat

/-- The bytes on a client's connection. -/
def stream (behind : Bytes → Bytes) (make : Packet → Language → Option Bytes) (l : Language)
    (calls : List ClientCall) : Bytes :=
  (calls.filterMap (·.message make l)).flatMap fun m => l.written behind m

def bytes : ClientCall → Bytes
  | .send p => p.bytes
  | .heartbeat => KnotLink.heartbeat

theorem message_eq {make : Packet → Language → Option Bytes} (hmake : ∀ p l, make p l = some p.bytes) (l : Language)
    (c : ClientCall) : c.message make l = some c.bytes := by
  cases c with
  | send p => exact hmake p l
  | heartbeat => rfl

/-- A packet tells its channel and its data; a heartbeat is none. -/
theorem cut?_bytes {c : ClientCall} (h : ∀ p, c = .send p → p.Sendable) :
    cut? Python.DELIMITER c.bytes =
      c.packet?.map fun p => (Utf8.encode (channel p.APPID p.ID), Utf8.encode p.data) := by
  cases c with
  | send p =>
    obtain ⟨hin, hend⟩ := (h p rfl).key.bytes (Python.encodeUtf8_text _)
    exact (cut?_delimiter (by decide)).2 ⟨rfl, hin, hend⟩
  | heartbeat => decide

end ClientCall

namespace Service

/-- The messages the service reads of a stream. -/
def reads (b : Bytes) : List Bytes := (wire.drain.run ⟨b, [], true⟩).got

/-- Behind the messages `read` the subscriber of `key` is sent the messages `out`. -/
def Forwards (read : List Bytes) (key : Bytes) (out : List Bytes) : Prop :=
  out.filter isMessage = (((read.filterMap (cut? Python.DELIMITER)).filter (·.1 = key)).map Prod.snd).filter isMessage

end Service

section
variable {calls : List ClientCall}

theorem admissible_bytes (h : ∀ p, .send p ∈ calls → p.Sendable) {c : ClientCall} (hc : c ∈ calls) :
    Admissible c.bytes := by
  cases c with
  | send p =>
    refine ⟨?_, (h p hc).length⟩
    simp only [ClientCall.bytes, Packet.bytes, List.length_append]
    have : 0 < Python.DELIMITER.length := by decide
    omega
  | heartbeat => decide

/-- The service reads what a client has written. -/
theorem reads_written (behind : Bytes → Bytes) (l : Language) {ms : List Bytes} (hok : ∀ m ∈ ms, Admissible m) :
    Service.reads (ms.flatMap fun m => l.written behind m) = ms := by
  have hstream : (ms.flatMap fun m => l.written behind m) = wire.encodeAll ms :=
    List.flatMap_congr fun m hm => l.written_eq (hok m hm).2
  rw [hstream, Service.reads, (wire.drain_split (Codec.split_encodeAll hok) []).1, List.nil_append]

theorem reads_stream (behind : Bytes → Bytes) {make : Packet → Language → Option Bytes}
    (hmake : ∀ p l, make p l = some p.bytes) (l : Language) (h : ∀ p, .send p ∈ calls → p.Sendable) :
    Service.reads (ClientCall.stream behind make l calls) = calls.map ClientCall.bytes := by
  have hmessages : calls.filterMap (·.message make l) = calls.map ClientCall.bytes := by
    rw [← List.filterMap_eq_map]
    exact List.filterMap_congr fun c _ => c.message_eq hmake l
  rw [ClientCall.stream, hmessages]
  refine reads_written behind l fun m hm => ?_
  obtain ⟨c, hc, rfl⟩ := List.mem_map.1 hm
  exact admissible_bytes h hc

end

theorem encode_injective : Function.Injective Utf8.encode := by
  intro cs ds h
  have := congrArg Utf8.decodeReplace h
  rwa [Utf8.decodeReplace_encode, Utf8.decodeReplace_encode] at this

/-- The texts of a channel, in the order of the service. -/
def channelTexts (APPID ID : List Char) (emitted : List Packet) : List (List Char) :=
  ((emitted.filter fun p => channel p.APPID p.ID = channel APPID ID).map (·.data)).filter
    (· ≠ "heartbeat_response".toList)

theorem mem_channelTexts {APPID ID : List Char} {emitted : List Packet} {m : Bytes}
    (h : m ∈ (channelTexts APPID ID emitted).map Utf8.encode) : ∃ p ∈ emitted, Utf8.encode p.data = m := by
  obtain ⟨cs, hcs, rfl⟩ := List.mem_map.1 h
  obtain ⟨p, hp, rfl⟩ := List.mem_map.1 (List.mem_filter.1 hcs).1
  exact ⟨p, (List.mem_filter.1 hp).1, rfl⟩

/-- What the service cuts of the packets it has read. -/
theorem cut_read {read : List ClientCall} (h : ∀ p, .send p ∈ read → p.Sendable) :
    (read.map ClientCall.bytes).filterMap (cut? Python.DELIMITER) =
      (read.filterMap ClientCall.packet?).map fun p => (Utf8.encode (channel p.APPID p.ID), Utf8.encode p.data) := by
  rw [List.filterMap_map, List.map_filterMap]
  exact List.filterMap_congr fun c hc => ClientCall.cut?_bytes fun p hp => h p (hp ▸ hc)

theorem encode_heartbeat : isMessage ∘ Utf8.encode = fun cs => decide (cs ≠ "heartbeat_response".toList) := by
  funext cs
  have hbytes : heartbeatResponse = Utf8.encode "heartbeat_response".toList := by decide
  simp only [Function.comp_apply, isMessage, hbytes, ne_eq, encode_injective.eq_iff]

theorem forwarded_eq {read : List ClientCall} (h : ∀ p, .send p ∈ read → p.Sendable) (APPID ID : List Char) :
    ((((read.map ClientCall.bytes).filterMap (cut? Python.DELIMITER)).filter
        (·.1 = Utf8.encode (channel APPID ID))).map Prod.snd).filter isMessage =
      (channelTexts APPID ID (read.filterMap ClientCall.packet?)).map Utf8.encode := by
  have hchannel : ((fun p : Bytes × Bytes => decide (p.1 = Utf8.encode (channel APPID ID))) ∘
      fun p : Packet => (Utf8.encode (channel p.APPID p.ID), Utf8.encode p.data)) =
      fun p => decide (channel p.APPID p.ID = channel APPID ID) := by
    funext p
    simp [encode_injective.eq_iff]
  have hrouted := List.filter_map (p := fun p : Bytes × Bytes => decide (p.1 = Utf8.encode (channel APPID ID)))
    (f := fun p : Packet => (Utf8.encode (channel p.APPID p.ID), Utf8.encode p.data))
    (l := read.filterMap ClientCall.packet?)
  rw [cut_read h, hrouted, hchannel, List.map_map, channelTexts, ← encode_heartbeat, ← List.filter_map, List.map_map]
  rfl

/-- **Signals from any SDK to any SDK.** -/
theorem signals_delivered {ι : Type} [DecidableEq ι] (behind : Bytes → Bytes) {fromUtf8 : Bytes → List Char}
    (hfrom : Qt.Decodes fromUtf8) (sender : ι → Language) (calls : ι → List ClientCall)
    (hsendable : ∀ i p, .send p ∈ calls i → p.Sendable) {read : List (ι × Bytes)}
    (hread : Merges (fun i => Service.reads (ClientCall.stream behind Language.emitt (sender i) (calls i))) read)
    (subscriber : Language) (APPID ID : List Char) {key : Bytes}
    (hkey : subscriber.register APPID ID = some key) {out : List Bytes}
    (hforwards : Service.Forwards (read.map Prod.snd) key out) {before after : List Bytes}
    (hne : ∀ c ∈ before ++ after, c ≠ []) (hcut : (before ++ after).flatten = wire.encodeAll out)
    (hspared : subscriber = .csharp → CSharp.ReadLoop.CutsSpareBodies out (before ++ after))
    (hplain : subscriber = .qt → ∀ i p, .send p ∈ calls i → Qt.Plain p.data) :
    ∃ history : List (ι × Packet), Merges (fun i => (calls i).filterMap ClientCall.packet?) history ∧
      let texts := channelTexts APPID ID (history.map Prod.snd)
      subscriber.subscribed fromUtf8 before after =
        (if subscriber.keepsEarly then texts else texts.drop (messages before.flatten).length).map
          fun cs => subscriber.ofChars cs := by
  have hpackets : (fun i => Service.reads (ClientCall.stream behind Language.emitt (sender i) (calls i))) =
      fun i => (calls i).map ClientCall.bytes :=
    funext fun i => reads_stream behind Language.emitt_eq (sender i) (hsendable i)
  rw [hpackets] at hread
  obtain ⟨taken, htaken, rfl⟩ := hread.lift
  obtain rfl : Utf8.encode (channel APPID ID) = key :=
    Option.some.inj ((subscriber.register_eq APPID ID).symm.trans hkey)
  have hall : ∀ p, .send p ∈ taken.map Prod.snd → p.Sendable := by
    intro p hp
    obtain ⟨⟨i, c⟩, hmem, rfl⟩ := List.mem_map.1 hp
    exact hsendable i p (htaken.mem hmem)
  have hread : (taken.map (Prod.map id ClientCall.bytes)).map Prod.snd = (taken.map Prod.snd).map ClientCall.bytes := by
    simp
  rw [Service.Forwards, hread, forwarded_eq hall] at hforwards
  refine ⟨choose ClientCall.packet? taken, htaken.filterMap _, ?_⟩
  have hout : ∀ m ∈ out, Admissible m := by
    intro m hm
    cases hkeep : isMessage m with
    | true =>
      have hmem := List.mem_filter.2 ⟨hm, hkeep⟩
      rw [hforwards] at hmem
      obtain ⟨p, hp, rfl⟩ := mem_channelTexts hmem
      obtain ⟨c, hc, hpacket⟩ := List.mem_filterMap.1 hp
      exact (hall p (ClientCall.packet?_eq_some.1 hpacket ▸ hc)).admissible
    | false =>
      obtain rfl : m = heartbeatResponse := by simpa [isMessage] using hkeep
      decide
  dsimp only
  rw [map_snd_choose]
  refine subscriber.subscribed_eq hfrom hne hout hcut hforwards hspared fun hqt cs hcs => ?_
  obtain ⟨p, hp, rfl⟩ := List.mem_map.1 (List.mem_filter.1 hcs).1
  obtain ⟨c, hc, hpacket⟩ := List.mem_filterMap.1 (List.mem_filter.1 hp).1
  obtain ⟨⟨i, c⟩, hmem, rfl⟩ := List.mem_map.1 hc
  exact hplain hqt i p (ClientCall.packet?_eq_some.1 hpacket ▸ htaken.mem hmem)

/-- A Python sender on two channels, and a C# subscriber of the second one. -/
theorem signals_delivered_python_csharp :
    Language.csharp.subscribed Utf8.decodeReplace [] [frame heartbeatResponse, frame (ascii "y")] =
      ([['y']] : List (List Char)) := by
  let calls : Unit → List ClientCall := fun _ =>
    [.send ⟨['a'], ['s'], ['x']⟩, .heartbeat, .send ⟨['b'], ['s'], ['y']⟩]
  have hsendable : ∀ i p, .send p ∈ calls i → p.Sendable := by
    intro i p hp
    have hcases : p = ⟨['a'], ['s'], ['x']⟩ ∨ p = ⟨['b'], ['s'], ['y']⟩ := by simpa [calls] using hp
    rcases hcases with rfl | rfl <;> exact ⟨by decide, by decide, by decide⟩
  have hread : Merges (fun i => Service.reads (ClientCall.stream (fun _ => []) Language.emitt .python (calls i)))
      [((), ascii "a-s&*&x"), ((), heartbeat), ((), ascii "b-s&*&y")] := by
    rintro ⟨⟩
    dsimp only
    rw [reads_stream _ Language.emitt_eq .python (hsendable ())]
    decide
  have hforwards : Service.Forwards [ascii "a-s&*&x", heartbeat, ascii "b-s&*&y"]
      (Utf8.encode (channel ['b'] ['s'])) [heartbeatResponse, ascii "y"] := show _ = _ by decide
  have hcut : ([] ++ [frame heartbeatResponse, frame (ascii "y")]).flatten =
      wire.encodeAll [heartbeatResponse, ascii "y"] := by decide
  obtain ⟨history, hhistory, htexts⟩ := signals_delivered (fun _ => []) Qt.decodes_decodeReplace (fun _ => .python)
    calls hsendable hread .csharp ['b'] ['s'] (Language.register_eq _ _ _) hforwards (by decide) hcut
    (fun _ => CSharp.ReadLoop.spared_of_recovers (by decide) (by decide) hcut (by decide +kernel)) (fun h => by cases h)
  have hemitted : history.map Prod.snd = [⟨['a'], ['s'], ['x']⟩, ⟨['b'], ['s'], ['y']⟩] := by
    rw [← show fromSource () history = history.map Prod.snd by simp [fromSource]]
    exact hhistory ()
  rw [hemitted, List.flatten_nil, messages_nil] at htexts
  exact htexts

end KnotLink
