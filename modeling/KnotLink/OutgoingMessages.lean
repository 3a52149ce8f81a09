import KnotLink.Cpp.Querier
import KnotLink.Cpp.Send
import KnotLink.Cpp.TcpClient
import KnotLink.Qt.Querier
import KnotLink.Rust.Querier
import KnotLink.Rust.TcpClient
/-!
# Senders that do not look at the size

The Rust, C++ and Qt writers frame any message they are given, where every receiver stops at a length above 16 MiB
and the Python, Java, C#, JavaScript and PyQt writers refuse such a message. So a receiver gets back what the
writers of its own SDK sent, and keeps the connection, exactly while no message is longer (`sent_recovered_iff`).

The messages all hold an `&`: none is empty, and none is `heartbeat_response`.
-/
namespace KnotLink
open Lib

/-- The `&` of `&*&`. -/
def AMPERSAND : UInt8 := 0x26

namespace Rust

/-- The `full` of `emit` (signal_sender.rs:29-32). -/
def SignalSender.emit (appId signalId data : List Char) : Bytes :=
  Utf8.encode (appId ++ "-".toList ++ signalId ++ "&*&".toList) ++ Utf8.encode data

/-- The `resp` of `send_back` (open_socket_responser.rs:51). -/
def OpenSocketResponser.sendBack (questionId data : List Char) : Bytes :=
  Utf8.encode (questionId ++ "&*&".toList ++ data)

/-- What is handed to `pack_message`. -/
inductive Outgoing where
  | emit (appId signalId data : List Char)
  | query (data appId openSocketId : List Char)
  | sendBack (questionId data : List Char)
  deriving DecidableEq, Repr

def Outgoing.message : Outgoing → Bytes
  | .emit appId signalId data => SignalSender.emit appId signalId data
  | .query data appId openSocketId => OpenSocketQuerier.full data appId openSocketId
  | .sendBack questionId data => OpenSocketResponser.sendBack questionId data

theorem ampersand_mem_encode {cs : List Char} (h : '&' ∈ cs) : AMPERSAND ∈ Utf8.encode cs :=
  List.mem_flatMap.2 ⟨'&', h, by decide⟩

theorem Outgoing.ampersand_mem (o : Outgoing) : AMPERSAND ∈ o.message := by
  cases o with
  | emit appId signalId data =>
    exact List.mem_append_left _ (ampersand_mem_encode (by simp))
  | query data appId openSocketId =>
    exact List.mem_append_left _ (ampersand_mem_encode (by simp))
  | sendBack questionId data => exact ampersand_mem_encode (by simp)

end Rust

namespace Cpp

/-- The `s_data` of `emitt` (SignalSender.hpp:45). -/
def SignalSender.emitt (appID signalID data : Bytes) : Bytes :=
  appID ++ ascii "-" ++ signalID ++ ascii "&*&" ++ data

/-- What is handed to `sendData`. -/
inductive Outgoing where
  | emitt (appID signalID data : Bytes)
  | queryL (cfg : QuerierConfig) (question : Bytes)
  deriving DecidableEq, Repr

def Outgoing.message : Outgoing → Bytes
  | .emitt appID signalID data => SignalSender.emitt appID signalID data
  | .queryL cfg question => OpenSocketQuerier.packet cfg question

theorem Outgoing.ampersand_mem (o : Outgoing) : AMPERSAND ∈ o.message := by
  have hkey : AMPERSAND ∈ ascii "&*&" := by decide
  cases o with
  | emitt appID signalID data => simp [message, SignalSender.emitt, hkey]
  | queryL cfg question => simp [message, OpenSocketQuerier.packet, hkey]

end Cpp

namespace Qt
open QtSocket

/-- The `s_data` of `emitt` (signalsender.cpp:47-58). The overloads for a `QString` pass its UTF-8 on. -/
def SignalSender.emitt (appID signalID : List Char) (data : Bytes) : Bytes :=
  Utf8.encode (appID ++ "-".toList ++ signalID ++ "&*&".toList) ++ data

/-- The `s_data` of `query` (opensocketquerier.cpp:72-82). -/
def OpenSocketQuerier.packet (appID openSocketID : List Char) (data : Bytes) : Bytes :=
  Utf8.encode (appID ++ "-".toList ++ openSocketID ++ "&*&".toList) ++ data

/-- The `result` of `sendBack` (opensocketresponser.cpp:57). -/
def OpenSocketResponser.sendBack (data : Bytes) (questionID : List Char) : Bytes :=
  Utf8.encode questionID ++ ascii "&*&" ++ data

/-- What is handed to `sendData`. -/
inductive Outgoing where
  | emitt (appID signalID : List Char) (data : Bytes)
  | query (appID openSocketID : List Char) (data : Bytes)
  | sendBack (data : Bytes) (questionID : List Char)
  deriving DecidableEq, Repr

def Outgoing.message : Outgoing → Bytes
  | .emitt appID signalID data => SignalSender.emitt appID signalID data
  | .query appID openSocketID data => OpenSocketQuerier.packet appID openSocketID data
  | .sendBack data questionID => OpenSocketResponser.sendBack data questionID

theorem Outgoing.ampersand_mem (o : Outgoing) : AMPERSAND ∈ o.message := by
  cases o with
  | emitt appID signalID data =>
    exact List.mem_append_left _ (Rust.ampersand_mem_encode (by simp))
  | query appID openSocketID data =>
    exact List.mem_append_left _ (Rust.ampersand_mem_encode (by simp))
  | sendBack data questionID =>
    have hkey : AMPERSAND ∈ ascii "&*&" := by decide
    simp [message, OpenSocketResponser.sendBack, hkey]

/-- A connected client frames every message. -/
theorem written_sendData {κ : Type} {s : TcpClient κ} (hs : s.connected = true) (ms : List Bytes) :
    (ms.foldl TcpClient.sendData s).written = s.written ++ ms.map frame := by
  induction ms generalizing s with
  | nil => simp
  | cons m ms ih =>
    have hm : TcpClient.sendData s m = { s with written := s.written ++ [frame m] } := by
      rw [TcpClient.sendData, if_pos hs]
      rfl
    have htail := @ih { s with written := s.written ++ [frame m] } hs
    rw [List.foldl_cons, hm, htail]
    simp

end Qt

/-! ## What comes back -/

/-- A receiver that reads the codec's stream has got all messages, and is still connected, exactly if each of them
is within the limit. -/
theorem View.Follows.recovered_iff {σ : Type} {V : View σ} {s : σ} {chunks ms : List Bytes} {pack : Bytes → Bytes}
    (h : V.Follows [] s (wire.feedAll ⟨[], [], true⟩ chunks)) (hkeep : V.keep = isMessage)
    (hpack : ∀ m, m.length ≤ MAX_MSG_SIZE → pack m = frame m) (hmark : ∀ m ∈ ms, AMPERSAND ∈ m)
    (hwire : chunks.flatten = ms.flatMap pack) :
    (V.delivered s = ms ∧ V.up s = true) ↔ ∀ m ∈ ms, m.length ≤ MAX_MSG_SIZE := by
  constructor
  · rintro ⟨hms, -⟩ m hm
    exact (h.admissible hms m hm).2
  · intro hlen
    have hok : ∀ m ∈ ms, Admissible m :=
      fun m hm => ⟨List.length_pos_of_mem (hmark m hm), hlen m hm⟩
    have hframes : chunks.flatten = wire.encodeAll ms := by
      rw [hwire, Codec.encodeAll]
      exact List.flatMap_congr fun m hm => hpack m (hlen m hm)
    have hall : ms.filter isMessage = ms := by
      apply List.filter_eq_self.2
      intro m hm
      have hne : m ≠ heartbeatResponse := by
        rintro rfl
        have := hmark heartbeatResponse hm
        revert this
        decide
      simp [isMessage, hne]
    obtain ⟨hup, -, hdel⟩ := h.frames hok hframes
    exact ⟨by rw [hdel, hkeep, hall, List.nil_append], hup⟩

section
variable {chunks : List Bytes}

theorem Rust.recovered_iff (sent : List Rust.Outgoing) (hne : ∀ c ∈ chunks, c ≠ [])
    (hwire : chunks.flatten = (sent.map (·.message)).flatMap Rust.packMessage) :
    ((Rust.Run.readChunks .start chunks).onData = sent.map (·.message) ∧
        (Rust.Run.readChunks .start chunks).result = none) ↔
      ∀ o ∈ sent, o.message.length ≤ MAX_MSG_SIZE := by
  have h0 : Rust.Run.view.Follows [] .start ⟨[], [], true⟩ := ⟨rfl, fun _ => rfl, rfl⟩
  have hiff := (Rust.Run.readChunks_follows h0 hne).recovered_iff rfl
    (fun m _ => Rust.packMessage_eq m) (by simp [Rust.Outgoing.ampersand_mem]) hwire
  rw [List.forall_mem_map] at hiff
  rw [← hiff, ← Option.isNone_iff_eq_none]
  rfl

theorem Cpp.recovered_iff (behind : Bytes → Bytes) (sent : List Cpp.Outgoing) (hne : ∀ c ∈ chunks, c ≠ [])
    (hwire : chunks.flatten = (sent.map (·.message)).flatMap (Cpp.Senders.packet behind)) :
    ((Cpp.TcpClient.readChunks .connected chunks).delivered = sent.map (·.message) ∧
        (Cpp.TcpClient.readChunks .connected chunks).running = true) ↔
      ∀ o ∈ sent, o.message.length ≤ MAX_MSG_SIZE := by
  have h0 : Cpp.TcpClient.view.Follows [] .connected ⟨[], [], true⟩ := ⟨rfl, fun _ => rfl, rfl⟩
  have hpack : ∀ m : Bytes, m.length ≤ MAX_MSG_SIZE → Cpp.Senders.packet behind m = frame m :=
    fun m hm => Cpp.Senders.packet_eq (Nat.lt_of_le_of_lt hm (by decide)) behind
  have hiff := (Cpp.TcpClient.readChunks_follows h0 hne).recovered_iff rfl hpack
    (by simp [Cpp.Outgoing.ampersand_mem]) hwire
  rwa [List.forall_mem_map] at hiff

theorem Qt.recovered_iff (sent : List Qt.Outgoing) {κ : Type} (client : QtSocket.TcpClient κ)
    (hclient : client.connected = true) (hwritten : client.written = []) (hne : ∀ c ∈ chunks, c ≠ [])
    (hwire : chunks.flatten = ((sent.map (·.message)).foldl Qt.TcpClient.sendData client).written.flatten) :
    ((chunks.foldl (QtSocket.TcpClient.readyRead Qt.frameEnd QtSocket.TcpClient.record) ⟨true, [], [], []⟩).slots =
          sent.map (·.message) ∧
        (chunks.foldl (QtSocket.TcpClient.readyRead Qt.frameEnd QtSocket.TcpClient.record)
          ⟨true, [], [], []⟩).connected = true) ↔
      ∀ o ∈ sent, o.message.length ≤ MAX_MSG_SIZE := by
  have h0 : QtSocket.TcpClient.view.Follows [] ⟨true, [], [], []⟩ ⟨[], [], true⟩ := ⟨rfl, fun _ => rfl, rfl⟩
  have hfollows := wire.feedAll_follow (R := QtSocket.TcpClient.view.Follows []) (P := fun c => c ≠ [])
    (fun hc h => QtSocket.TcpClient.readyRead_follows Qt.frameEnd h hc) hne h0
  rw [Qt.written_sendData hclient, hwritten, List.nil_append, ← List.flatMap_def] at hwire
  have hiff := hfollows.recovered_iff rfl (fun m _ => rfl) (by simp [Qt.Outgoing.ampersand_mem]) hwire
  rwa [List.forall_mem_map] at hiff

end

/-- **The receiver of the same SDK recovers exactly the messages sent, and keeps the connection, exactly if** none
of them is longer than 16 MiB. -/
theorem sent_recovered_iff (behind : Bytes → Bytes) :
    (∀ (sent : List Rust.Outgoing) (chunks : List Bytes), (∀ c ∈ chunks, c ≠ []) →
      chunks.flatten = (sent.map (·.message)).flatMap Rust.packMessage →
      let run := Rust.Run.readChunks .start chunks
      ((run.onData = sent.map (·.message) ∧ run.result = none) ↔ ∀ o ∈ sent, o.message.length ≤ MAX_MSG_SIZE)) ∧
    (∀ (sent : List Cpp.Outgoing) (chunks : List Bytes), (∀ c ∈ chunks, c ≠ []) →
      chunks.flatten = (sent.map (·.message)).flatMap (Cpp.Senders.packet behind) →
      let client := Cpp.TcpClient.readChunks .connected chunks
      ((client.delivered = sent.map (·.message) ∧ client.running = true) ↔
        ∀ o ∈ sent, o.message.length ≤ MAX_MSG_SIZE)) ∧
    (∀ (sent : List Qt.Outgoing) (chunks : List Bytes), (∀ c ∈ chunks, c ≠ []) →
      let sender : QtSocket.TcpClient Unit := ⟨true, [], [], ()⟩
      chunks.flatten = ((sent.map (·.message)).foldl Qt.TcpClient.sendData sender).written.flatten →
      let client := chunks.foldl (QtSocket.TcpClient.readyRead Qt.frameEnd QtSocket.TcpClient.record) ⟨true, [], [], []⟩
      ((client.slots = sent.map (·.message) ∧ client.connected = true) ↔
        ∀ o ∈ sent, o.message.length ≤ MAX_MSG_SIZE)) :=
  ⟨fun sent _ hne hwire => Rust.recovered_iff sent hne hwire,
    fun sent _ hne hwire => Cpp.recovered_iff behind sent hne hwire,
    fun sent _ hne hwire => Qt.recovered_iff sent _ rfl rfl hne hwire⟩

/-- A signal and a question, the second frame cut inside its header. -/
theorem sent_recovered_iff_cut :
    (Rust.Run.readChunks .start [frame (ascii "a-s&*&x") ++ MAGIC, [0, 0, 0, 7] ++ ascii "b-o&*&y"]).onData =
        [ascii "a-s&*&x", ascii "b-o&*&y"] ∧
      (Cpp.TcpClient.readChunks .connected
          [frame (ascii "a-s&*&x") ++ MAGIC, [0, 0, 0, 7] ++ ascii "b-o&*&y"]).delivered =
        [ascii "a-s&*&x", ascii "b-o&*&y"] ∧
      ([frame (ascii "a-s&*&x") ++ MAGIC, [0, 0, 0, 7] ++ ascii "b-o&*&y"].foldl
          (QtSocket.TcpClient.readyRead Qt.frameEnd QtSocket.TcpClient.record) ⟨true, [], [], []⟩).slots =
        [ascii "a-s&*&x", ascii "b-o&*&y"] :=
  have h := sent_recovered_iff fun _ => []
  ⟨((h.1 [.emit ['a'] ['s'] ['x'], .query ['y'] ['b'] ['o']] _ (by decide) (by decide)).2 (by decide)).1,
    ((h.2.1 [.emitt (ascii "a") (ascii "s") (ascii "x"), .queryL ⟨ascii "b", ascii "o"⟩ (ascii "y")] _
      (by decide) (by decide)).2 (by decide)).1,
    ((h.2.2 [.emitt ['a'] ['s'] (ascii "x"), .query ['b'] ['o'] (ascii "y")] _
      (by decide) (by decide)).2 (by decide)).1⟩

/-! ## A message above the limit -/

theorem Rust.not_recovered {o : Rust.Outgoing} (h : MAX_MSG_SIZE < o.message.length) :
    ¬ ((Rust.Run.readChunks .start [Rust.packMessage o.message]).onData = [o.message] ∧
      (Rust.Run.readChunks .start [Rust.packMessage o.message]).result = none) := by
  have hne : ∀ c ∈ [Rust.packMessage o.message], c ≠ [] := by simp [Rust.packMessage_eq, frame_ne_nil]
  intro hrec
  have := (Rust.recovered_iff [o] hne (by simp)).1 hrec o (List.mem_singleton_self o)
  omega

theorem Cpp.not_recovered (behind : Bytes → Bytes) {o : Cpp.Outgoing} (h : MAX_MSG_SIZE < o.message.length) :
    ¬ ((Cpp.TcpClient.readChunks .connected [Cpp.Senders.packet behind o.message]).delivered = [o.message] ∧
      (Cpp.TcpClient.readChunks .connected [Cpp.Senders.packet behind o.message]).running = true) := by
  have hne : ∀ c ∈ [Cpp.Senders.packet behind o.message], c ≠ [] := by simp [Cpp.Senders.packet, MAGIC]
  intro hrec
  have := (Cpp.recovered_iff behind [o] hne (by simp)).1 hrec o (List.mem_singleton_self o)
  omega

theorem Qt.not_recovered {o : Qt.Outgoing} (h : MAX_MSG_SIZE < o.message.length) :
    ¬ ((QtSocket.TcpClient.readyRead Qt.frameEnd QtSocket.TcpClient.record ⟨true, [], [], []⟩
          (frame o.message)).slots = [o.message] ∧
      (QtSocket.TcpClient.readyRead Qt.frameEnd QtSocket.TcpClient.record ⟨true, [], [], []⟩
          (frame o.message)).connected = true) := by
  have hne : ∀ c ∈ [frame o.message], c ≠ [] := by simp [frame_ne_nil]
  intro hrec
  have := (Qt.recovered_iff [o] (⟨true, [], [], ()⟩ : QtSocket.TcpClient Unit) rfl rfl hne
    (by rw [Qt.written_sendData rfl]; simp)).1 hrec o (List.mem_singleton_self o)
  omega

/-- Data of 16 MiB: with its key the message is longer, and none of the three receivers takes it. -/
theorem oversized_not_recovered :
    (∃ o : Rust.Outgoing, o = .emit ['a'] ['s'] (List.replicate MAX_MSG_SIZE 'x') ∧
      ¬ ((Rust.Run.readChunks .start [Rust.packMessage o.message]).onData = [o.message] ∧
        (Rust.Run.readChunks .start [Rust.packMessage o.message]).result = none)) ∧
    (∃ o : Cpp.Outgoing, o = .emitt (ascii "a") (ascii "s") (List.replicate MAX_MSG_SIZE 0x78) ∧
      ¬ ((Cpp.TcpClient.readChunks .connected [Cpp.Senders.packet (fun _ => []) o.message]).delivered = [o.message] ∧
        (Cpp.TcpClient.readChunks .connected [Cpp.Senders.packet (fun _ => []) o.message]).running = true)) ∧
    (∃ o : Qt.Outgoing, o = .emitt ['a'] ['s'] (List.replicate MAX_MSG_SIZE 0x78) ∧
      ¬ ((QtSocket.TcpClient.readyRead Qt.frameEnd QtSocket.TcpClient.record ⟨true, [], [], []⟩
            (frame o.message)).slots = [o.message] ∧
        (QtSocket.TcpClient.readyRead Qt.frameEnd QtSocket.TcpClient.record ⟨true, [], [], []⟩
            (frame o.message)).connected = true)) := by
  refine ⟨⟨_, rfl, Rust.not_recovered ?_⟩, ⟨_, rfl, Cpp.not_recovered _ ?_⟩, ⟨_, rfl, Qt.not_recovered ?_⟩⟩
  · generalize MAX_MSG_SIZE = n
    have hdata : (Utf8.encode (List.replicate n 'x')).length = n := by
      have hx : 'x'.utf8Size = 1 := by decide
      simp [Utf8.encode, List.length_flatMap, hx]
    simp only [Rust.Outgoing.message, Rust.SignalSender.emit, List.length_append, hdata]
    have : 0 < (Utf8.encode (['a'] ++ "-".toList ++ ['s'] ++ "&*&".toList)).length := by decide
    omega
  · generalize MAX_MSG_SIZE = n
    simp only [Cpp.Outgoing.message, Cpp.SignalSender.emitt, List.length_append, List.length_replicate]
    have : 0 < (ascii "a").length := by decide
    omega
  · generalize MAX_MSG_SIZE = n
    simp only [Qt.Outgoing.message, Qt.SignalSender.emitt, List.length_append, List.length_replicate]
    have : 0 < (Utf8.encode (['a'] ++ "-".toList ++ ['s'] ++ "&*&".toList)).length := by decide
    omega

end KnotLink
