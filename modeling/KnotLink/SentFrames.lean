import KnotLink.Java.Send
import KnotLink.Js.Send
import KnotLink.Python.Stream
import KnotLink.SilentDisconnect
/-!
# Senders that look at the size

The Python, Java and JavaScript writers refuse a message above 16 MiB, the receivers a frame above it. The receivers
refuse a frame without a body too, and no writer refuses an empty message: its frame is written, and whoever reads it
gives up the connection. So a receiver takes a frame exactly if its message is admissible (`View.takes_iff`), and a
send does nothing or writes a frame that is taken exactly if the message is not empty, where the socket takes the
frame whole (`sent_frame_taken_iff`).
-/
namespace KnotLink
open Lib

namespace View
variable {σ : Type} (V : View σ)

/-- However it is cut, the receiver reads a stream as the codec does. -/
def Reads (receive : σ → List Bytes → σ) : Prop :=
  ∀ {g : List Bytes} {r : σ} {a : Codec.Receiver UInt8 Bytes} {chunks : List Bytes}, (∀ c ∈ chunks, c ≠ []) →
    V.Follows g r a → V.Follows g (receive r chunks) (wire.feedAll a chunks)

/-- The frame of `data` may come anywhere between the frames of other messages and be cut in any way: the receiver
stays connected, has nothing left to read, and has delivered these messages in order. -/
def Takes (receive : σ → List Bytes → σ) (data : Bytes) : Prop :=
  ∀ (r : σ) (before after chunks : List Bytes), V.up r = true → V.buffer r = [] →
    (∀ m ∈ before ++ after, Admissible m) → (∀ c ∈ chunks, c ≠ []) →
    chunks.flatten = wire.encodeAll before ++ frame data ++ wire.encodeAll after →
    V.up (receive r chunks) = true ∧ V.buffer (receive r chunks) = [] ∧
      V.delivered (receive r chunks) = V.delivered r ++ (before ++ data :: after).filter V.keep

variable {V} {receive : σ → List Bytes → σ} {data : Bytes}

theorem takes_of_admissible (hreads : V.Reads receive) (h : Admissible data) : V.Takes receive data := by
  intro r before after chunks hup hbuf hothers hne hcut
  have hok : ∀ m ∈ before ++ data :: after, Admissible m := by
    intro m hm
    rcases List.mem_append.1 hm with hm | hm
    · exact hothers m (List.mem_append_left _ hm)
    · rcases List.mem_cons.1 hm with rfl | hm
      · exact h
      · exact hothers m (List.mem_append_right _ hm)
  have hstream : chunks.flatten = wire.encodeAll (before ++ data :: after) := by
    rw [hcut, Codec.encodeAll_append, Codec.encodeAll_cons, List.append_assoc]
    rfl
  exact (hreads hne (follows_fresh hup hbuf)).frames hok hstream

/-- What is delivered was read, so its length was in range; a heartbeat response is not delivered, but short. -/
theorem admissible_of_takes (hreads : V.Reads receive) (hkeep : V.keep = isMessage) {r : σ} (hup : V.up r = true)
    (hbuf : V.buffer r = []) (h : V.Takes receive data) : Admissible data := by
  have hne : ∀ c ∈ [frame data], c ≠ [] := by simpa using frame_ne_nil data
  obtain ⟨-, -, hdel⟩ := h r [] [] [frame data] hup hbuf (by simp) hne (by simp)
  have hgot := (hreads hne (follows_fresh hup hbuf)).admissible hdel
  rw [hkeep, List.nil_append] at hgot
  cases hmsg : isMessage data with
  | false =>
    obtain rfl : data = heartbeatResponse := by simpa [isMessage] using hmsg
    decide
  | true => exact hgot data (List.mem_filter.2 ⟨List.mem_cons_self, hmsg⟩)

theorem takes_iff (hreads : V.Reads receive) (hkeep : V.keep = isMessage) {r : σ} (hup : V.up r = true)
    (hbuf : V.buffer r = []) : V.Takes receive data ↔ Admissible data :=
  ⟨admissible_of_takes hreads hkeep hup hbuf, takes_of_admissible hreads⟩

end View

/-- A send has done nothing at all, or the whole frame of `data` has been written and its receivers take it. -/
def Sound {τ : Type} (written : τ → Bytes) (takes : Bytes → Prop) (s t : τ) (data : Bytes) : Prop :=
  t = s ∨ (written t = written s ++ frame data ∧ takes data)

theorem admissible_iff {data : Bytes} (h : data.length ≤ MAX_MSG_SIZE) : Admissible data ↔ data ≠ [] := by
  rw [Admissible, ← List.length_pos_iff]
  omega

/-- A send of a message within the limit that has written `taken`. -/
theorem sound_iff {τ : Type} {written : τ → Bytes} {takes : Bytes → Prop} {s t : τ} {data taken : Bytes}
    (htakes : takes data ↔ Admissible data) (hlen : data.length ≤ MAX_MSG_SIZE) (ht : written t = written s ++ taken) :
    Sound written takes s t data ↔ t = s ∨ (data ≠ [] ∧ taken = frame data) := by
  rw [Sound, ht, List.append_right_inj, htakes, admissible_iff hlen, and_comm]

namespace Python.TcpClient

/-- The bytes that `sendall` hands to the peer. -/
def SendAll.taken : SendAll → Bytes → Bytes
  | .ok, bytes => bytes
  | .fails n, bytes => bytes.take n

/-- A receiver whose callback neither disconnects nor raises. -/
def Takes (data : Bytes) : Prop := view.Takes (receiveChunks (some quiet)) data

theorem takes_iff {data : Bytes} : Takes data ↔ Admissible data :=
  View.takes_iff (r := fresh) (fun hne h => receiveChunks_follows hne h) rfl rfl rfl

section
variable {s : TcpClient} {data : Bytes} (net : SendAll)

theorem sendData_disconnected (hs : s.connected = false) : (s.sendData data net).1 = s := by
  simp [sendData, writeWithLengthPrefix, hs]

theorem sendData_tooLong (h : MAX_MSG_SIZE < data.length) : (s.sendData data net).1 = s := by
  cases hs : s.connected <;> simp [sendData, writeWithLengthPrefix, hs, packet, h]

theorem sendData_sent (hs : s.connected = true) (h : data.length ≤ MAX_MSG_SIZE) :
    (s.sendData data net).1.sent = s.sent ++ net.taken (frame data) := by
  cases net <;> simp [sendData, writeWithLengthPrefix, hs, packet_ok h, SendAll.taken]

/-- Bytes are behind what was sent, or the connection has been given up. -/
theorem sendData_moves (hs : s.connected = true) (h : data.length ≤ MAX_MSG_SIZE) : (s.sendData data net).1 ≠ s := by
  intro hsame
  cases net with
  | ok =>
    have hsent := sendData_sent .ok hs h
    rw [hsame] at hsent
    exact ne_append_frame _ _ hsent
  | fails n =>
    have hdown : (s.sendData data (.fails n)).1.connected = false := by
      simp [sendData, writeWithLengthPrefix, hs, packet_ok h]
    rw [hsame, hs] at hdown
    cases hdown

end

theorem sendData_sound_iff (s : TcpClient) (data : Bytes) (net : SendAll) :
    Sound sent Takes s (s.sendData data net).1 data ↔
      (s.connected = true → MAX_MSG_SIZE < data.length ∨ (data ≠ [] ∧ net.taken (frame data) = frame data)) := by
  cases hs : s.connected with
  | false => exact iff_of_true (.inl (sendData_disconnected net hs)) (by simp)
  | true =>
    by_cases hlen : MAX_MSG_SIZE < data.length
    · exact iff_of_true (.inl (sendData_tooLong net hlen)) fun _ => .inl hlen
    · have hle : data.length ≤ MAX_MSG_SIZE := by omega
      rw [sound_iff takes_iff hle (sendData_sent net hs hle), or_iff_right (sendData_moves net hs hle)]
      simp [hlen]

end Python.TcpClient

namespace Java

/-- A receiver whose listener does not disconnect, whatever it throws. -/
def Takes (data : Bytes) : Prop :=
  ∀ listener : Listener, (∀ ms, TcpClient.disconnects listener ms = false) →
    TcpClient.view.Takes (TcpClient.readChunks listener) data

theorem takes_iff {data : Bytes} : Takes data ↔ Admissible data := by
  have hreads : ∀ listener : Listener, (∀ ms, TcpClient.disconnects listener ms = false) →
      TcpClient.view.Reads (TcpClient.readChunks listener) := by
    intro listener hstays g r a chunks _ h
    exact (TcpClient.readTurn_feeds listener).follows ((TcpClient.processBody_serves listener).parses rfl hstays) h chunks
  constructor
  · intro h
    exact View.admissible_of_takes (hreads quiet fun _ => rfl) rfl (r := .connected) rfl ByteBuffer.contents_empty
      (h quiet fun _ => rfl)
  · exact fun h listener hstays => View.takes_of_admissible (hreads listener hstays) h

theorem sendData_sound_iff (s : Writer) (data : Bytes) (write : Write) :
    Sound Writer.written Takes s (s.sendData data write).1 data ↔
      (s.out ≠ none → MAX_MSG_SIZE < data.length ∨ write.taken (frame data) = [] ∨
        (data ≠ [] ∧ write.taken (frame data) = frame data)) := by
  cases hout : s.out with
  | none => exact iff_of_true (.inl (Writer.sendData_null hout)) (by simp)
  | some out =>
    by_cases hlen : MAX_MSG_SIZE < data.length
    · exact iff_of_true (.inl (Writer.sendData_tooLarge hlen)) fun _ => .inl hlen
    · have hle : data.length ≤ MAX_MSG_SIZE := by omega
      have hsent : (s.sendData data write).1 = { s with out := some (out ++ write.taken (frame data)) } :=
        Writer.sendData_taken hout hle
      have hwritten : (s.sendData data write).1.written = s.written ++ write.taken (frame data) := by
        rw [hsent, Writer.written, Writer.written, hout]
        rfl
      have hsame : (s.sendData data write).1 = s ↔ write.taken (frame data) = [] := by
        rw [hsent]
        constructor
        · intro h
          have := (congrArg Writer.out h).trans hout
          exact List.self_eq_append_right.1 (Option.some.inj this).symm
        · intro h
          rw [h, List.append_nil, ← hout]
      rw [sound_iff takes_iff hle hwritten, hsame]
      simp [hlen]

end Java

namespace Js

/-- A receiver whose callback neither disconnects nor throws. -/
def Takes (data : Bytes) : Prop :=
  ∀ callback : Callback, (∀ ms, TcpClient.stops callback ms = false) →
    TcpClient.view.Takes (TcpClient.onChunks (some callback)) data

theorem takes_iff {data : Bytes} : Takes data ↔ Admissible data := by
  have hreads : ∀ callback : Callback, (∀ ms, TcpClient.stops callback ms = false) →
      TcpClient.view.Reads (TcpClient.onChunks (some callback)) := by
    intro callback hstays g r a chunks _ h
    exact (TcpClient.onData_feeds (some callback)).follows ((TcpClient.processBody_serves callback).parses rfl hstays)
      h chunks
  have hquiet : ∀ ms, TcpClient.stops (fun _ => ⟨false, false⟩) ms = false := fun _ => rfl
  constructor
  · intro h
    exact View.admissible_of_takes (hreads _ hquiet) rfl (r := .start) rfl rfl (h _ hquiet)
  · exact fun h callback hstays => View.takes_of_admissible (hreads callback hstays) h

theorem sendData_sound_iff (s : Writer) (data : Bytes) :
    Sound Writer.written Takes s (s.sendData data).1 data ↔ (s.client.connected = true → data ≠ []) := by
  cases hs : s.client.connected with
  | false => exact iff_of_true (.inl (congrArg Prod.fst (Writer.sendData_disconnected hs))) (by simp)
  | true =>
    by_cases hlen : MAX_MSG_SIZE < data.length
    · refine iff_of_true (.inl (congrArg Prod.fst (Writer.sendData_tooLong hs hlen))) fun _ => ?_
      exact List.length_pos_iff.1 (by omega)
    · have hle : data.length ≤ MAX_MSG_SIZE := by omega
      have hwritten : (s.sendData data).1.written = s.written ++ frame data := by rw [Writer.sendData_ok hs hle]
      have hmoved : (s.sendData data).1 ≠ s := by
        intro h
        rw [h] at hwritten
        exact ne_append_frame _ _ hwritten
      rw [sound_iff takes_iff hle hwritten, or_iff_right hmoved]
      simp

end Js

/-- **A send does nothing, or writes a frame that every receiver of its SDK takes,** exactly if it is not connected,
the message is above 16 MiB, or the message is not empty and the socket takes its frame whole. In Java a stream that
takes no byte changes nothing either, and in JavaScript the socket takes what it is given. -/
theorem sent_frame_taken_iff (data : Bytes) :
    (∀ (s : Python.TcpClient) (net : Python.TcpClient.SendAll),
      Sound Python.TcpClient.sent Python.TcpClient.Takes s (s.sendData data net).1 data ↔
        (s.connected = true → MAX_MSG_SIZE < data.length ∨ (data ≠ [] ∧ net.taken (frame data) = frame data))) ∧
    (∀ (s : Java.Writer) (write : Java.Write),
      Sound Java.Writer.written Java.Takes s (s.sendData data write).1 data ↔
        (s.out ≠ none → MAX_MSG_SIZE < data.length ∨ write.taken (frame data) = [] ∨
          (data ≠ [] ∧ write.taken (frame data) = frame data))) ∧
    (∀ s : Js.Writer,
      Sound Js.Writer.written Js.Takes s (s.sendData data).1 data ↔ (s.client.connected = true → data ≠ [])) :=
  ⟨fun s net => Python.TcpClient.sendData_sound_iff s data net, fun s write => Java.sendData_sound_iff s data write,
    fun s => Js.sendData_sound_iff s data⟩

/-- The frame of the empty message is written by all three clients, and no receiver of theirs takes it. -/
theorem empty_message_sent :
    ¬ Sound Python.TcpClient.sent Python.TcpClient.Takes .fresh (Python.TcpClient.fresh.sendData [] .ok).1 [] ∧
    ¬ Sound Java.Writer.written Java.Takes ⟨.connected, some []⟩
      (Java.Writer.sendData ⟨.connected, some []⟩ [] .ok).1 [] ∧
    ¬ Sound Js.Writer.written Js.Takes ⟨.start, []⟩ (Js.Writer.sendData ⟨.start, []⟩ []).1 [] := by
  refine ⟨fun h => ?_, fun h => ?_, fun h => ?_⟩
  · have := (Python.TcpClient.sendData_sound_iff _ _ _).1 h rfl
    simp at this
  · have := (Java.sendData_sound_iff _ _ _).1 h (by simp)
    simp [Java.Write.taken, frame_ne_nil] at this
  · have := (Js.sendData_sound_iff _ _).1 h rfl
    simp at this

end KnotLink
