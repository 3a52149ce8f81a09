import KnotLink.Agreement
import KnotLink.CSharp.ReadTask
import KnotLink.CSharp.Segmentation
import KnotLink.Js.Events
import KnotLink.PyQt.TcpClient
import KnotLink.Python.Text
import KnotLink.Qt.TcpClient
/-!
# Subscribers

A subscriber hands on what its client receives. Python, Java, JavaScript, C# and Qt make a text of it and replace what
is not UTF-8, C++ hands on the bytes, Rust drops a message that is not UTF-8, and PyQt decodes strictly in a slot, so
that such a message ends the process (SignalSubscriber.py:34-38). The constructors connect and register before the
application can set its callback: what is complete by then is lost. Java wants the application's listener first
(SignalSubscriber.java:36-39), but `start` connects, and the client reads, before it sets the listener of the client
(SignalSubscriber.java:42-47), with the same loss. In Rust a channel keeps the messages.

`subscribers_receive` says what each application gets of any stream under any cut. The callback is set between two reads;
where another thread sets it between two messages of one read, that is another cut of the stream.
-/
namespace KnotLink
open Lib

/-- What a subscriber knows of its application: whether the callback is set, and the arguments it was called with. -/
structure Subscriber (α : Type) where
  callback : Bool
  calls : List α
  deriving DecidableEq, Repr

namespace Subscriber
variable {α β : Type}

def fresh : Subscriber α := ⟨false, []⟩

/-- The callback, if it is set. -/
def call (s : Subscriber α) (a : α) : Subscriber α := if s.callback then { s with calls := s.calls ++ [a] } else s

def setCallback (s : Subscriber α) : Subscriber α := { s with callback := true }

/-- A subscriber on the messages of its client, the callback set between the early and the late ones. -/
def receive (handler : Subscriber α → β → Subscriber α) (early late : List β) : Subscriber α :=
  late.foldl handler (early.foldl handler fresh).setCallback

theorem foldl_call {handler : Subscriber α → β → Subscriber α} {f : β → α} {ms : List β}
    (hf : ∀ s, ∀ m ∈ ms, handler s m = s.call (f m)) (s : Subscriber α) :
    ms.foldl handler s = { s with calls := s.calls ++ if s.callback then ms.map f else [] } := by
  induction ms generalizing s with
  | nil => simp
  | cons m ms ih =>
    rw [List.foldl_cons, hf s m List.mem_cons_self, ih fun s m hm => hf s m (List.mem_cons_of_mem _ hm)]
    cases hs : s.callback <;> simp [call, hs]

/-- Only the late messages are seen. -/
theorem calls_receive {handler : Subscriber α → β → Subscriber α} {f : β → α} {early late : List β}
    (hf : ∀ s, ∀ m ∈ early ++ late, handler s m = s.call (f m)) : (receive handler early late).calls = late.map f := by
  have hearly : ∀ s, ∀ m ∈ early, handler s m = s.call (f m) := fun s m hm => hf s m (List.mem_append_left _ hm)
  have hlate : ∀ s, ∀ m ∈ late, handler s m = s.call (f m) := fun s m hm => hf s m (List.mem_append_right _ hm)
  rw [receive, foldl_call hearly, foldl_call hlate]
  simp [setCallback, fresh]

end Subscriber

/-! ## The messages of two parts of a stream -/

/-- The application messages that the later chunks complete. -/
def laterMessages (before after : List Bytes) : List Bytes :=
  (messages (before ++ after).flatten).drop (messages before.flatten).length

theorem messages_later (before after : List Bytes) :
    messages (before ++ after).flatten = messages before.flatten ++ laterMessages before after := by
  have hpre : messages before.flatten <+: messages (before ++ after).flatten := by
    rw [List.flatten_append]
    exact messages_grow _ _
  obtain ⟨later, hlater⟩ := hpre
  rw [laterMessages, ← hlater, List.drop_left]

theorem isMessage_of_mem {b m : Bytes} (h : m ∈ messages b) : isMessage m = true := (List.mem_filter.1 h).2

theorem messages_nil : messages [] = [] := messages_of_drained fun m r h => by simp at h

/-- A client that has followed the codec from the start has delivered the messages of the stream. -/
theorem View.Follows.messages {σ : Type} {V : View σ} {s : σ} {chunks : List Bytes}
    (h : V.Follows [] s (wire.feedAll ⟨[], [], true⟩ chunks)) (hkeep : V.keep = isMessage) :
    V.delivered s = KnotLink.messages chunks.flatten := by
  rw [h.delivered, hkeep, List.nil_append, feedAll_messages (b := []) (fun m r h => by simp at h), List.nil_append]

/-! ## The handlers -/

namespace Python

/-- `data_recv` (SignalSubscriber.py:34-44): with `errors='replace'` nothing is raised. -/
def SignalSubscriber.dataRecv (s : Subscriber PyStr) (data : Bytes) : Subscriber PyStr :=
  let receivedText := decodeUtf8Replace data
  s.call receivedText

/-- The subscriber on a stream; `set_RecvFunc` comes between the two parts of it. -/
def SignalSubscriber.onStream (before after : List Bytes) : Subscriber PyStr :=
  let early := TcpClient.receiveChunks (some quiet) .fresh before
  let late := TcpClient.receiveChunks (some quiet) early after
  Subscriber.receive dataRecv early.received (late.received.drop early.received.length)

end Python

namespace Js

/-- `dataRecv` (SignalSubscriber.js:40-49), which catches what the callback throws. -/
def SignalSubscriber.dataRecv (s : Subscriber (List Char)) (data : Bytes) : Subscriber (List Char) :=
  let receivedText := Utf8.decodeReplace data
  s.call receivedText

/-- The subscriber on a stream; `setRecvFunc` comes between the two parts of it. -/
def SignalSubscriber.onStream (before after : List Bytes) : Subscriber (List Char) :=
  let early := TcpClient.start.onChunks (some Client.quiet) before
  let late := early.onChunks (some Client.quiet) after
  Subscriber.receive dataRecv early.delivered (late.delivered.drop early.delivered.length)

end Js

namespace Cpp

/-- `handleReceivedData` (SignalSubscriber.hpp:60-65). -/
def SignalSubscriber.handleReceivedData (s : Subscriber Bytes) (data : Bytes) : Subscriber Bytes :=
  if data = heartbeatResponse then s else s.call data

/-- The subscriber on a stream; `setOnDataReceivedCallback` comes between the two parts of it. -/
def SignalSubscriber.onStream (before after : List Bytes) : Subscriber Bytes :=
  let early := TcpClient.readChunks .connected before
  let late := early.readChunks after
  Subscriber.receive handleReceivedData early.delivered (late.delivered.drop early.delivered.length)

end Cpp

namespace CSharp

/-- `HandleSignalAsync` (SignalSubscriber.cs:47-55). -/
def SignalSubscriber.handleSignalAsync (s : Subscriber (List Char)) (data : List Char) : Subscriber (List Char) :=
  s.call data

/-- The subscriber on a stream; `OnSignalAsync` is set between the two parts of it. `callback` is what
`HandleSignalAsync` then does to the client. -/
def SignalSubscriber.onStream (callback : Callback) (onError : Option ErrorHandler)
    (before after : List Bytes) : Subscriber (List Char) :=
  let early := ReadTask.readLoop (some callback) onError (before.map .bytes)
  let late := ReadTask.readLoop (some callback) onError ((before ++ after).map .bytes)
  Subscriber.receive handleSignalAsync early.loop.delivered (late.loop.delivered.drop early.loop.delivered.length)

end CSharp

namespace Java

/-- `dataReceivedListener`, if `start` has set it (TcpClient.java:190, SignalSubscriber.java:44-47): it gets the text. -/
def SignalSubscriber.onDataReceived (s : Subscriber (List Char)) (msgBytes : Bytes) : Subscriber (List Char) :=
  let received := Utf8.decodeReplace msgBytes
  s.call received

/-- `start` (SignalSubscriber.java:35-56) on a stream. It connects only with a `signalListener`;
`setDataReceivedListener` comes between the two parts of the stream. -/
def SignalSubscriber.onStream (signalListener : Bool) (before after : List Bytes) : Subscriber (List Char) :=
  if signalListener then
    let early := TcpClient.readChunks quiet .connected before
    let late := TcpClient.readChunks quiet early after
    Subscriber.receive onDataReceived early.delivered (late.delivered.drop early.delivered.length)
  else .fresh

end Java

namespace Rust

/-- `on_data` (signal_subscriber.rs:25-29) on what is in the channel. -/
def SignalSubscriber.onData (rx : List (List Char)) (data : Bytes) : List (List Char) :=
  match Utf8.decodeStrict data with
  | some s => rx ++ [s]
  | none => rx

def SignalSubscriber.onStream (chunks : List Bytes) : List (List Char) :=
  (Run.readChunks .start chunks).onData.foldl onData []

end Rust

namespace Qt

/-- The application's slots on the two signals. -/
structure SignalSubscriber where
  receivedDataA : Subscriber Bytes
  receivedData : Subscriber (List Char)
  deriving DecidableEq, Repr

namespace SignalSubscriber
variable (fromUtf8 : Bytes → List Char)

def fresh : SignalSubscriber := ⟨.fresh, .fresh⟩

/-- The application connects its slots. -/
def setCallback (s : SignalSubscriber) : SignalSubscriber := ⟨s.receivedDataA.setCallback, s.receivedData.setCallback⟩

/-- `dataRecv` (signalsubscriber.cpp:40-46). -/
def dataRecv (s : SignalSubscriber) (data : Bytes) : SignalSubscriber :=
  let s := { s with receivedDataA := s.receivedDataA.call data }
  let receivedText := fromUtf8 data
  { s with receivedData := s.receivedData.call receivedText }

/-- The subscriber on a stream; the application connects its slots between the two parts of it. -/
def onStream (before after : List Bytes) : SignalSubscriber :=
  let early := before.foldl (QtSocket.TcpClient.readyRead frameEnd (dataRecv fromUtf8)) ⟨true, [], [], fresh⟩
  let late := { early with slots := early.slots.setCallback }
  (after.foldl (QtSocket.TcpClient.readyRead frameEnd (dataRecv fromUtf8)) late).slots

end SignalSubscriber
end Qt

namespace PyQt
open Python

structure SignalSubscriber where
  receivedDataA : Subscriber Bytes
  receivedData : Subscriber PyStr
  /-- `UnicodeDecodeError` has left the slot. -/
  aborted : Bool
  deriving DecidableEq, Repr

namespace SignalSubscriber

def fresh : SignalSubscriber := ⟨.fresh, .fresh, false⟩

/-- The application connects its slots. -/
def setCallback (s : SignalSubscriber) : SignalSubscriber :=
  { s with receivedDataA := s.receivedDataA.setCallback, receivedData := s.receivedData.setCallback }

/-- `dataRecv` (SignalSubscriber.py:34-38). -/
def dataRecv (s : SignalSubscriber) (data : Bytes) : SignalSubscriber :=
  if s.aborted then s
  else
    let s := { s with receivedDataA := s.receivedDataA.call data }
    match decodeUtf8 data with
    | none => { s with aborted := true }
    | some receivedText => { s with receivedData := s.receivedData.call receivedText }

/-- The subscriber on a stream; the application connects its slots between the two parts of it. -/
def onStream (before after : List Bytes) : SignalSubscriber :=
  let early := before.foldl (QtSocket.TcpClient.readyRead frameEnd dataRecv) ⟨true, [], [], fresh⟩
  let late := { early with slots := early.slots.setCallback }
  (after.foldl (QtSocket.TcpClient.readyRead frameEnd dataRecv) late).slots

end SignalSubscriber
end PyQt

/-! ## What the applications get -/

section
variable {before after : List Bytes}

/-- The calls of a handler that sees what a client has delivered. -/
theorem Subscriber.calls_late {α : Type} {handler : Subscriber α → Bytes → Subscriber α} {f : Bytes → α}
    (hf : ∀ s m, isMessage m = true → handler s m = s.call (f m)) {early late : List Bytes}
    (hearly : early = messages before.flatten) (hlate : late = messages (before ++ after).flatten) :
    (Subscriber.receive handler early (late.drop early.length)).calls = (laterMessages before after).map f := by
  subst hearly hlate
  refine Subscriber.calls_receive fun s m hm => hf s m ?_
  rcases List.mem_append.1 hm with hm | hm
  · exact isMessage_of_mem hm
  · exact isMessage_of_mem (List.mem_of_mem_drop hm)

theorem Python.SignalSubscriber.calls_onStream (hne : ∀ c ∈ before ++ after, c ≠ []) :
    (onStream before after).calls = (laterMessages before after).map decodeUtf8Replace := by
  have h0 : TcpClient.view.Follows [] .fresh ⟨[], [], true⟩ := ⟨rfl, fun _ => rfl, rfl⟩
  have hearly := TcpClient.receiveChunks_follows (fun c hc => hne c (List.mem_append_left _ hc)) h0
  have hlate := TcpClient.receiveChunks_follows (fun c hc => hne c (List.mem_append_right _ hc)) hearly
  rw [Codec.feedAll, Codec.feedAll, ← List.foldl_append] at hlate
  exact Subscriber.calls_late (fun _ _ _ => rfl) (hearly.messages rfl) (hlate.messages rfl)

theorem Js.SignalSubscriber.calls_onStream :
    (onStream before after).calls = (laterMessages before after).map Utf8.decodeReplace := by
  have h0 : TcpClient.view.Follows [] .start ⟨[], [], true⟩ := ⟨rfl, fun _ => rfl, rfl⟩
  have hearly := Client.onChunks_follows h0 before
  have hlate := Client.onChunks_follows hearly after
  rw [Codec.feedAll, Codec.feedAll, ← List.foldl_append] at hlate
  exact Subscriber.calls_late (fun _ _ _ => rfl) (hearly.messages rfl) (hlate.messages rfl)

/-- The second test for a heartbeat response finds none. -/
theorem Cpp.SignalSubscriber.calls_onStream (hne : ∀ c ∈ before ++ after, c ≠ []) :
    (onStream before after).calls = laterMessages before after := by
  have h0 : TcpClient.view.Follows [] .connected ⟨[], [], true⟩ := ⟨rfl, fun _ => rfl, rfl⟩
  have hearly := TcpClient.readChunks_follows h0 fun c hc => hne c (List.mem_append_left _ hc)
  have hlate := TcpClient.readChunks_follows hearly fun c hc => hne c (List.mem_append_right _ hc)
  rw [Codec.feedAll, Codec.feedAll, ← List.foldl_append] at hlate
  have hhandler : ∀ s m, isMessage m = true → handleReceivedData s m = s.call (id m) := by
    intro s m hm
    rw [handleReceivedData, if_neg (by simpa [isMessage] using hm), id]
  exact (Subscriber.calls_late hhandler (hearly.messages rfl) (hlate.messages rfl)).trans (List.map_id _)

theorem Java.SignalSubscriber.calls_onStream :
    (onStream true before after).calls = (laterMessages before after).map Utf8.decodeReplace := by
  have h0 : TcpClient.view.Follows [] .connected ⟨[], [], true⟩ :=
    ⟨rfl, fun _ => ByteBuffer.contents_empty, rfl⟩
  have hearly := TcpClient.readChunks_follows h0 before
  have hlate := TcpClient.readChunks_follows hearly after
  rw [Codec.feedAll, Codec.feedAll, ← List.foldl_append] at hlate
  rw [onStream, if_pos rfl]
  exact Subscriber.calls_late (fun _ _ _ => rfl) (hearly.messages rfl) (hlate.messages rfl)

theorem Rust.SignalSubscriber.onStream_eq {chunks : List Bytes} (hne : ∀ c ∈ chunks, c ≠ []) :
    onStream chunks = (messages chunks.flatten).filterMap Utf8.decodeStrict := by
  have h0 : Run.view.Follows [] .start ⟨[], [], true⟩ := ⟨rfl, fun _ => rfl, rfl⟩
  have hall : ∀ (ms : List Bytes) (rx : List (List Char)),
      ms.foldl onData rx = rx ++ ms.filterMap Utf8.decodeStrict := by
    intro ms
    induction ms with
    | nil => simp
    | cons m ms ih =>
      intro rx
      rw [List.foldl_cons, ih, onData]
      cases hm : Utf8.decodeStrict m <;> simp [hm]
  rw [onStream, hall, List.nil_append]
  exact congrArg _ ((Run.readChunks_follows h0 hne).messages rfl)

/-- Up to a cut that spares the bodies, as all cuts of the stream do, the loop has read what the codec has. -/
theorem CSharp.ReadLoop.follows_of_spared {payloads : List Bytes} (hp : ∀ p ∈ payloads, Admissible p)
    (hne : ∀ c ∈ before ++ after, c ≠ []) (hcut : (before ++ after).flatten = wire.encodeAll payloads)
    (h : CutsSpareBodies payloads (before ++ after)) :
    view.Follows [] (readChunks start before) (wire.feedAll ⟨[], [], true⟩ before) := by
  induction before using List.reverseRecOn generalizing after with
  | nil => exact start_follows
  | append_singleton pre c ih =>
    rw [List.append_assoc] at hne hcut h
    have hf := ih hne hcut h
    refine follows_snoc (hne c (by simp)) hf fun hx => ?_
    rw [(length_eq_pending hp hcut hf hx).1]
    exact h pre ([c] ++ after) rfl (by simp)

theorem CSharp.SignalSubscriber.calls_onStream {callback : Callback} {onError : Option ErrorHandler}
    (hstays : ∀ texts, (callback texts).disposal = .live) {payloads : List Bytes} (hp : ∀ p ∈ payloads, Admissible p)
    (hne : ∀ c ∈ before ++ after, c ≠ []) (hcut : (before ++ after).flatten = wire.encodeAll payloads)
    (h : ReadLoop.CutsSpareBodies payloads (before ++ after)) :
    (onStream callback onError before after).calls = (laterMessages before after).map Utf8.decodeReplace := by
  have hread : ∀ {chunks : List Bytes},
      ReadLoop.view.Follows [] (ReadLoop.readChunks .start chunks) (wire.feedAll ⟨[], [], true⟩ chunks) →
      (ReadTask.readLoop (some callback) onError (chunks.map .bytes)).loop.delivered =
        (messages chunks.flatten).map Utf8.decodeReplace := by
    intro chunks hf
    have hgot : (ReadLoop.readChunks .start chunks).extracted = (wire.feedAll ⟨[], [], true⟩ chunks).got :=
      hf.delivered.trans (List.filter_eq_self.2 fun _ _ => rfl)
    rw [ReadTask.delivered_readLoop hstays, hgot, feedAll_messages (b := []) (fun m r h => by simp at h),
      List.nil_append]
  have hearly := hread (ReadLoop.follows_of_spared hp hne hcut h)
  have hall : (before ++ after) ++ [] = before ++ after := List.append_nil _
  have hlate := hread (ReadLoop.follows_of_spared hp (by rwa [hall]) (by rwa [hall]) (by rwa [hall]))
  rw [onStream, hearly, hlate, List.length_map, ← List.map_drop]
  refine (Subscriber.calls_receive (f := id) fun _ _ _ => rfl).trans ?_
  rw [List.map_id]
  rfl

/-- Slots that change between the two parts of the stream. -/
theorem QtSocket.TcpClient.slots_late {κ : Type} (e : FrameEnd) (emit : κ → Bytes → κ) (k : κ) (f : κ → κ)
    (hne : ∀ c ∈ before ++ after, c ≠ []) :
    let s := before.foldl (readyRead e emit) ⟨true, [], [], k⟩
    (after.foldl (readyRead e emit) { s with slots := f s.slots }).slots =
      (laterMessages before after).foldl emit (f ((messages before.flatten).foldl emit k)) := by
  intro s
  have h0 : view.Follows [] (⟨true, [], [], []⟩ : TcpClient (List Bytes)) ⟨[], [], true⟩ := ⟨rfl, fun _ => rfl, rfl⟩
  have hfollows : ∀ {chunks : List Bytes}, (∀ c ∈ chunks, c ≠ []) → view.Follows []
      (chunks.foldl (readyRead e record) ⟨true, [], [], []⟩) (wire.feedAll ⟨[], [], true⟩ chunks) := fun hne =>
    wire.feedAll_follow (R := view.Follows []) (P := fun c => c ≠ []) (fun hc h => readyRead_follows e h hc) hne h0
  have hearly := (hfollows fun c hc => hne c (List.mem_append_left _ hc)).messages rfl
  have hlate := (hfollows hne).messages rfl
  rw [List.foldl_append] at hlate
  have hstart : Works emit k ⟨true, [], [], k⟩ ⟨true, [], [], []⟩ := rfl
  have hs : Works emit k s (before.foldl (readyRead e record) ⟨true, [], [], []⟩) := works_foldl hstart before
  generalize before.foldl (readyRead e record) ⟨true, [], [], []⟩ = t at hearly hlate hs
  -- what is recorded from now on
  have hrest : Works record t.slots t (t.withSlots []) := rfl
  have hmore : (after.foldl (readyRead e record) t).slots =
      (after.foldl (readyRead e record) (t.withSlots [])).slots.foldl record t.slots :=
    congrArg slots (works_foldl hrest after)
  have hend : Works emit (f s.slots) { s with slots := f s.slots } (t.withSlots []) := by
    rw [Works, show s = _ from hs]
    rfl
  have hcalls : (after.foldl (readyRead e emit) { s with slots := f s.slots }).slots =
      (after.foldl (readyRead e record) (t.withSlots [])).slots.foldl emit (f s.slots) :=
    congrArg slots (works_foldl hend after)
  generalize after.foldl (readyRead e record) (t.withSlots []) = u at hmore hcalls
  have hu : u.slots = laterMessages before after := by
    have hall : messages (before ++ after).flatten = messages before.flatten ++ u.slots := by
      rw [← hlate, ← hearly]
      exact hmore.trans (foldl_record _ _)
    exact List.append_cancel_left (hall.symm.trans (messages_later before after))
  have hslots : s.slots = (messages before.flatten).foldl emit k := by
    rw [← hearly]
    exact congrArg slots hs
  rw [← hu, ← hslots]
  exact hcalls

theorem Qt.SignalSubscriber.onStream_eq (fromUtf8 : Bytes → List Char) (hne : ∀ c ∈ before ++ after, c ≠ []) :
    onStream fromUtf8 before after =
      ⟨⟨true, laterMessages before after⟩, ⟨true, (laterMessages before after).map fromUtf8⟩⟩ := by
  have hall : ∀ (ms : List Bytes) (s : SignalSubscriber), ms.foldl (dataRecv fromUtf8) s =
      ⟨ms.foldl Subscriber.call s.receivedDataA, ms.foldl (fun t m => t.call (fromUtf8 m)) s.receivedData⟩ := by
    intro ms
    induction ms with
    | nil => exact fun s => rfl
    | cons m ms ih => exact fun s => ih _
  have hslots := QtSocket.TcpClient.slots_late frameEnd (dataRecv fromUtf8) fresh setCallback hne
  refine hslots.trans ?_
  have hcall (ms : List Bytes) (s : Subscriber Bytes) : ms.foldl Subscriber.call s =
      { s with calls := s.calls ++ if s.callback then ms.map id else [] } := Subscriber.foldl_call (fun _ _ _ => rfl) s
  have htext (ms : List Bytes) (s : Subscriber (List Char)) : ms.foldl (fun t m => t.call (fromUtf8 m)) s =
      { s with calls := s.calls ++ if s.callback then ms.map fromUtf8 else [] } :=
    Subscriber.foldl_call (fun _ _ _ => rfl) s
  rw [hall, hall, setCallback, hcall, hcall, htext, htext]
  simp [fresh, Subscriber.fresh, Subscriber.setCallback]

namespace PyQt.SignalSubscriber
open Python

/-- The messages up to the first that is not UTF-8. -/
def served : List Bytes → List Bytes
  | [] => []
  | m :: ms => if decodeUtf8 m = none then [m] else m :: served ms

theorem served_eq {ms : List Bytes} (h : ∀ m ∈ ms, decodeUtf8 m ≠ none) (ns : List Bytes) :
    served (ms ++ ns) = ms ++ served ns := by
  induction ms with
  | nil => rfl
  | cons m ms ih =>
    rw [List.cons_append, served, if_neg (h m List.mem_cons_self), ih fun m hm => h m (List.mem_cons_of_mem _ hm)]
    rfl

/-- Behind such a message nothing is served. -/
theorem drop_served {ms : List Bytes} (h : ∃ m ∈ ms, decodeUtf8 m = none) (ns : List Bytes) :
    (served (ms ++ ns)).drop ms.length = [] := by
  induction ms with
  | nil => simp at h
  | cons m ms ih =>
    rw [List.cons_append, served]
    by_cases hm : decodeUtf8 m = none
    · rw [if_pos hm]
      simp
    · rw [if_neg hm, List.length_cons, List.drop_succ_cons]
      obtain ⟨m', hm', hbad⟩ := h
      rcases List.mem_cons.1 hm' with rfl | hm'
      · exact absurd hbad hm
      · exact ih ⟨m', hm', hbad⟩

theorem foldl_aborted {s : SignalSubscriber} (hs : s.aborted = true) (ms : List Bytes) : ms.foldl dataRecv s = s := by
  induction ms with
  | nil => rfl
  | cons m ms ih => rw [List.foldl_cons, dataRecv, if_pos hs, ih]

/-- What becomes of a subscriber by some messages. -/
theorem foldl_dataRecv {a : Subscriber Bytes} {t : Subscriber PyStr} (ms : List Bytes) :
    ms.foldl dataRecv ⟨a, t, false⟩ =
      ⟨{ a with calls := a.calls ++ if a.callback then served ms else [] },
        { t with calls := t.calls ++ if t.callback then (served ms).filterMap decodeUtf8 else [] },
        decide (∃ m ∈ ms, decodeUtf8 m = none)⟩ := by
  induction ms generalizing a t with
  | nil => simp [served]
  | cons m ms ih =>
    obtain ⟨seen, bytes⟩ := a
    obtain ⟨seen', texts⟩ := t
    rw [List.foldl_cons, dataRecv, if_neg (by simp)]
    cases hm : decodeUtf8 m with
    | none =>
      dsimp only
      rw [foldl_aborted rfl]
      cases seen <;> simp [served, hm, Subscriber.call]
    | some text =>
      dsimp only
      rw [ih]
      cases seen <;> cases seen' <;> simp [served, hm, Subscriber.call]

theorem onStream_eq (hne : ∀ c ∈ before ++ after, c ≠ []) :
    let late := (served (messages (before ++ after).flatten)).drop (messages before.flatten).length
    onStream before after = ⟨⟨true, late⟩, ⟨true, late.filterMap decodeUtf8⟩,
      decide (∃ m ∈ messages (before ++ after).flatten, decodeUtf8 m = none)⟩ := by
  intro late
  have hslots := QtSocket.TcpClient.slots_late frameEnd dataRecv fresh setCallback hne
  refine hslots.trans ?_
  rw [fresh, foldl_dataRecv]
  simp only [late, messages_later before after]
  by_cases hbad : ∃ m ∈ messages before.flatten, decodeUtf8 m = none
  · have hall : ∃ m ∈ messages before.flatten ++ laterMessages before after, decodeUtf8 m = none := by
      obtain ⟨m, hm, hnone⟩ := hbad
      exact ⟨m, List.mem_append_left _ hm, hnone⟩
    rw [drop_served hbad, foldl_aborted (decide_eq_true hbad), decide_eq_true hall, decide_eq_true hbad]
    simp [setCallback, Subscriber.setCallback, Subscriber.fresh]
  · have hgood : ∀ m ∈ messages before.flatten, decodeUtf8 m ≠ none := fun m hm hnone => hbad ⟨m, hm, hnone⟩
    have hiff : (∃ m ∈ messages before.flatten ++ laterMessages before after, decodeUtf8 m = none) ↔
        ∃ m ∈ laterMessages before after, decodeUtf8 m = none := by
      refine ⟨fun ⟨m, hm, hnone⟩ => ?_, fun ⟨m, hm, hnone⟩ => ⟨m, List.mem_append_right _ hm, hnone⟩⟩
      exact ⟨m, (List.mem_append.1 hm).resolve_left fun hm => hgood m hm hnone, hnone⟩
    rw [served_eq hgood, List.drop_left, decide_eq_false hbad, setCallback, foldl_dataRecv]
    simp only [hiff]
    simp [Subscriber.setCallback, Subscriber.fresh]

end PyQt.SignalSubscriber
end

/-- Nothing is dropped and nothing is replaced exactly if every message is a text. -/
theorem filterMap_decodeStrict_eq_iff {ms : List Bytes} :
    ms.filterMap Utf8.decodeStrict = ms.map Utf8.decodeReplace ↔ ∀ m ∈ ms, ∃ cs, m = Utf8.encode cs := by
  constructor
  · intro h m hm
    have hlen := congrArg List.length h
    rw [List.length_filterMap_eq_countP, List.length_map, List.countP_eq_length] at hlen
    obtain ⟨cs, hcs⟩ := Option.isSome_iff_exists.1 (hlen m hm)
    exact ⟨cs, Utf8.decodeStrict_eq_some.1 hcs⟩
  · intro h
    rw [← List.filterMap_eq_map]
    refine List.filterMap_congr fun m hm => ?_
    obtain ⟨cs, rfl⟩ := h m hm
    rw [Utf8.decodeStrict_encode, Function.comp_apply, Utf8.decodeReplace_encode]

theorem decodeUtf8_eq_none_iff {m : Bytes} : Python.decodeUtf8 m = none ↔ ¬ ∃ cs, m = Utf8.encode cs := by
  rw [Python.decodeUtf8, Option.map_eq_none_iff, Option.eq_none_iff_forall_ne_some, not_exists]
  exact forall_congr' fun cs => not_congr Utf8.decodeStrict_eq_some

end KnotLink
