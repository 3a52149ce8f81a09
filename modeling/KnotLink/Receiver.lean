import KnotLink.Frame
/-!
# What a receive path has to show

Every SDK has its own buffer and its own parser loop. A `View` says how the state of a client is read as
a receiver of the codec; `View.Parses` is what one turn of the parser must do on each front of the
buffer. From the turns follow the loop (`Parses.run`) and the whole stream (`View.Follows.feedAll`), once
for all SDKs.
-/
namespace KnotLink
open Lib

/-- Not a heartbeat response: what the receive paths hand to the application. -/
def isMessage (m : Bytes) : Bool := m ≠ heartbeatResponse

/-- How a client's state is read: still connected, unread bytes, messages handed over, and which messages
are handed over at all. -/
structure View (σ : Type) where
  up : σ → Bool
  buffer : σ → Bytes
  delivered : σ → List Bytes
  keep : Bytes → Bool

namespace View
variable {σ ρ : Type} (V : View σ)

/-- The client and the codec's receiver have read the same; `g` is what had been delivered before. -/
structure Follows (g : List Bytes) (s : σ) (a : Codec.Receiver UInt8 Bytes) : Prop where
  up : V.up s = a.up
  buffer : a.up = true → V.buffer s = a.buffer
  delivered : V.delivered s = g ++ a.got.filter V.keep

/-- A parser whose turns read the front of the buffer; `out r s'` is "the loop has ended by `r` in `s'`". -/
structure Parses (b : Body σ ρ) (out : ρ → σ → Prop) : Prop where
  short : ∀ {s}, V.up s = true → wireFront (V.buffer s) = .short → ∃ r s', b.turn s = .leave r ∧ out r s' ∧
    V.up s' = true ∧ V.buffer s' = V.buffer s ∧ V.delivered s' = V.delivered s
  bad : ∀ {s}, V.up s = true → wireFront (V.buffer s) = .bad → ∃ r s', b.turn s = .leave r ∧ out r s' ∧
    V.up s' = false ∧ V.delivered s' = V.delivered s
  frame : ∀ {s m rest}, V.up s = true → wireFront (V.buffer s) = .frame m rest → ∃ s', b.turn s = .again s' ∧
    V.up s' = true ∧ V.buffer s' = rest ∧ V.delivered s' = V.delivered s ++ [m].filter V.keep

variable {V} {b : Body σ ρ} {out : ρ → σ → Prop} {g : List Bytes}

theorem follows_fresh {s : σ} (hup : V.up s = true) (hbuf : V.buffer s = []) :
    V.Follows (V.delivered s) s ⟨[], [], true⟩ :=
  ⟨hup, fun _ => hbuf, (List.append_nil _).symm⟩

/-- The parser loop drains the buffer as the codec does. -/
theorem Parses.run (hp : V.Parses b out) {s : σ} {a : Codec.Receiver UInt8 Bytes} (h : V.Follows g s a)
    (hup : a.up = true) : ∃ s', out (b.run s) s' ∧ V.Follows g s' (wire.drain.run a) := by
  refine Body.simulate (R := fun s a => V.Follows g s a ∧ a.up = true)
    (Q := fun r a => ∃ s', out r s' ∧ V.Follows g s' a) b wire.drain ?_ ⟨h, hup⟩
  rintro s a ⟨h, hup⟩
  have hs : V.up s = true := h.up.trans hup
  have hfront : wire.front a.buffer = wireFront (V.buffer s) := by rw [h.buffer hup]; rfl
  simp only [Codec.drain, hfront]
  cases hf : wireFront (V.buffer s) with
  | short =>
    obtain ⟨r, s', ht, ho, hu, hb, hd⟩ := hp.short hs hf
    rw [ht]
    exact .leave ⟨s', ho, hu.trans hup.symm, fun h' => hb.trans (h.buffer h'), hd.trans h.delivered⟩
  | bad =>
    obtain ⟨r, s', ht, ho, hu, hd⟩ := hp.bad hs hf
    rw [ht]
    exact .leave ⟨s', ho, hu, fun h' => by simp at h', hd.trans h.delivered⟩
  | frame m rest =>
    obtain ⟨s', ht, hu, hb, hd⟩ := hp.frame hs hf
    rw [ht]
    refine .again ⟨⟨hu.trans hup.symm, fun _ => hb, ?_⟩, hup⟩
    rw [hd, h.delivered, List.filter_append, List.append_assoc]

/-- One chunk: a client that has given up ignores it, any other one appends it and parses. -/
theorem Follows.feed (hp : V.Parses b out) {s : σ} {a : Codec.Receiver UInt8 Bytes} (h : V.Follows g s a)
    {c : Bytes} {t : σ} (hdown : V.up s = false → t = s)
    (hstep : V.up s = true → ∃ s', V.up s' = true ∧ V.buffer s' = V.buffer s ++ c ∧
      V.delivered s' = V.delivered s ∧ ∀ s'', out (b.run s') s'' → t = s'') :
    V.Follows g t (wire.feed a c) := by
  by_cases hu : a.up = true
  · obtain ⟨s', hs', hb, hd, ht⟩ := hstep (h.up.trans hu)
    have h' : V.Follows g s' { a with buffer := a.buffer ++ c } :=
      ⟨hs'.trans hu.symm, fun _ => by rw [hb, h.buffer hu], hd.trans h.delivered⟩
    obtain ⟨s'', hout, hf⟩ := hp.run h' hu
    rw [Codec.feed, if_pos hu, ht s'' hout]
    exact hf
  · have hd : a.up = false := by simpa using hu
    rw [hdown (h.up.trans hd), Codec.feed, if_neg hu]
    exact h

/-- A fresh client that follows the codec over a stream delivers the messages of its split, and gives up
exactly when what is left is malformed. -/
theorem Follows.split {s : σ} {chunks : List Bytes} (h : V.Follows g s (wire.feedAll ⟨[], [], true⟩ chunks))
    {ms : List Bytes} {r : Bytes} (hs : wire.Split chunks.flatten ms r) :
    V.delivered s = g ++ ms.filter V.keep ∧ (V.up s = false ↔ wireFront r = .bad) ∧
      (V.up s = true → V.buffer s = r) := by
  obtain ⟨hgot, hup, hbuf⟩ := wire.feedAll_split hs []
  refine ⟨?_, ?_, ?_⟩
  · rw [h.delivered, hgot, List.nil_append]
  · rw [h.up]; exact hup
  · intro hc
    have hc' := h.up.symm.trans hc
    rw [h.buffer hc', hbuf hc']

/-- What such a client has delivered came in accepted frames. -/
theorem Follows.admissible {s : σ} {chunks : List Bytes} (h : V.Follows g s (wire.feedAll ⟨[], [], true⟩ chunks))
    {ms : List Bytes} (hms : V.delivered s = g ++ ms) : ∀ m ∈ ms, Admissible m := by
  obtain ⟨ns, r, hs⟩ := wire.split_exists chunks.flatten
  have heq : ms = ns.filter V.keep := List.append_cancel_left (hms.symm.trans (h.split hs).1)
  intro m hm
  rw [heq] at hm
  exact hs.ok m (List.mem_filter.1 hm).1

/-- A fresh client that follows the codec over whole frames has read them to the end. -/
theorem Follows.frames {s : σ} {chunks : List Bytes} (h : V.Follows g s (wire.feedAll ⟨[], [], true⟩ chunks))
    {ms : List Bytes} (hok : ∀ m ∈ ms, Admissible m) (hcut : chunks.flatten = wire.encodeAll ms) :
    V.up s = true ∧ V.buffer s = [] ∧ V.delivered s = g ++ ms.filter V.keep := by
  have hsplit : wire.Split chunks.flatten ms [] := hcut ▸ Codec.split_encodeAll hok
  obtain ⟨hdelivered, hdown, hbuffer⟩ := h.split hsplit
  have hup : V.up s = true := by
    rw [← Bool.not_eq_false, hdown, wireFront_nil]
    simp
  exact ⟨hup, hbuffer hup, hdelivered⟩

end View

theorem filter_isMessage_singleton (m : Bytes) :
    [m].filter isMessage = if m = heartbeatResponse then [] else [m] := by
  by_cases h : m = heartbeatResponse <;> simp [isMessage, h]

/-- The application messages whose frames are in front of a stream. -/
def messages (b : Bytes) : List Bytes := (wire.drain.run ⟨b, [], true⟩).got.filter isMessage

theorem messages_split {b r : Bytes} {ms : List Bytes} (h : wire.Split b ms r) : messages b = ms.filter isMessage := by
  rw [messages, (wire.drain_split h []).1, List.nil_append]

theorem messages_of_drained {b : Bytes} (h : ∀ m r, wireFront b ≠ .frame m r) : messages b = [] :=
  messages_split (.nil h)

theorem messages_grow (b c : Bytes) : messages b <+: messages (b ++ c) := by
  obtain ⟨ms, r, hs⟩ := wire.split_exists b
  obtain ⟨ns, r', hs'⟩ := wire.split_exists (r ++ c)
  rw [messages_split hs, messages_split (hs.append hs'), List.filter_append]
  exact List.prefix_append _ _

/-- A receiver with unread bytes reads them in front of the chunks. -/
theorem feedAll_messages {b : Bytes} (hb : ∀ m r, wireFront b ≠ .frame m r) (cs : List Bytes) :
    (wire.feedAll ⟨b, [], true⟩ cs).got.filter isMessage = messages (b ++ cs.flatten) := by
  cases cs with
  | nil =>
    rw [List.flatten_nil, List.append_nil, messages_of_drained hb]
    rfl
  | cons c cs =>
    obtain ⟨ms, r, hs⟩ := wire.split_exists (b ++ c)
    obtain ⟨hgot, hbuf, hup⟩ := wire.drain_split hs []
    have h0 : wire.Tracks [] (b ++ c) (wire.feed ⟨b, [], true⟩ c) := ⟨ms, r, hs, hgot, hup, fun _ => hbuf⟩
    obtain ⟨ms', r', hs', hgot', -⟩ := wire.tracks_feedAll h0 cs
    rw [List.append_assoc] at hs'
    rw [List.flatten_cons, messages_split hs']
    exact congrArg (List.filter isMessage) hgot'

end KnotLink
