import KnotLink.Lib.History
import KnotLink.Receiver
/-!
# Listeners that disconnect

Where `disconnect` empties the receive buffer, a parser that has called the listener finds nothing more to read.
`View.Serves` is what one turn of such a parser must do; from the turns follow one buffer (`Serves.run`) and the whole
stream (`View.Served`): the messages delivered are those up to the one whose listener stops the client.
-/
namespace KnotLink
open Lib

namespace View
variable {σ ρ : Type} (V : View σ)

/-- A parser with a listener, known by the calls that stop the client and by those of them that disconnect. -/
structure Serves (stops disconnects : List Bytes → Bool) (b : Body σ ρ) (out : ρ → σ → Prop) : Prop where
  short : ∀ {s}, V.up s = true → wireFront (V.buffer s) = .short → ∃ r s', b.turn s = .leave r ∧ out r s' ∧
    V.up s' = true ∧ V.buffer s' = V.buffer s ∧ V.delivered s' = V.delivered s
  bad : ∀ {s}, V.up s = true → wireFront (V.buffer s) = .bad → ∃ r s', b.turn s = .leave r ∧ out r s' ∧
    V.up s' = false ∧ V.delivered s' = V.delivered s
  skip : ∀ {s m rest}, V.up s = true → wireFront (V.buffer s) = .frame m rest → isMessage m = false →
    ∃ s', b.turn s = .again s' ∧ V.up s' = true ∧ V.buffer s' = rest ∧ V.delivered s' = V.delivered s
  deliver : ∀ {s m rest}, V.up s = true → wireFront (V.buffer s) = .frame m rest → isMessage m = true →
    stops (V.delivered s ++ [m]) = false → ∃ s', b.turn s = .again s' ∧ V.up s' = true ∧ V.buffer s' = rest ∧
      V.delivered s' = V.delivered s ++ [m]
  stop : ∀ {s m rest}, V.up s = true → wireFront (V.buffer s) = .frame m rest → isMessage m = true →
    stops (V.delivered s ++ [m]) = true → ∃ s', out (b.run s) s' ∧ V.up s' = false ∧
      V.delivered s' = V.delivered s ++ [m] ∧ (disconnects (V.delivered s ++ [m]) = true → V.buffer s' = [])

/-- The client, which had delivered `g`, has read the messages `ms` and then `r`. -/
inductive Read (stops disconnects : List Bytes → Bool) (g ms : List Bytes) (r : Bytes) (s : σ) : Prop where
  | all (quiet : Each (fun p => stops p = false) g ms) (delivered : V.delivered s = g ++ ms)
      (up : V.up s = false ↔ wireFront r = .bad) (buffer : V.up s = true → V.buffer s = r)
  | stopped {done m more} (messages : ms = done ++ m :: more) (quiet : Each (fun p => stops p = false) g done)
      (stop : stops (g ++ done ++ [m]) = true) (delivered : V.delivered s = g ++ done ++ [m]) (down : V.up s = false)
      (buffer : disconnects (g ++ done ++ [m]) = true → V.buffer s = [])

variable {V} {stops disconnects : List Bytes → Bool} {b : Body σ ρ} {out : ρ → σ → Prop}

theorem Read.append {g ms ns : List Bytes} {r : Bytes} {s : σ} (hms : Each (fun p => stops p = false) g ms)
    (h : V.Read stops disconnects (g ++ ms) ns r s) : V.Read stops disconnects g (ms ++ ns) r s := by
  cases h with
  | all quiet delivered up buffer =>
    exact .all (each_append.2 ⟨hms, quiet⟩) (by rw [delivered, List.append_assoc]) up buffer
  | @stopped done m more messages quiet stop delivered down buffer =>
    rw [List.append_assoc g ms done] at stop delivered buffer
    exact .stopped (by rw [messages, List.append_assoc]) (each_append.2 ⟨hms, quiet⟩) stop delivered down buffer

/-- One buffer. -/
theorem Serves.run (hb : V.Serves stops disconnects b out) {ms : List Bytes} {r : Bytes} {s : σ} (hs : V.up s = true)
    (h : wire.Split (V.buffer s) ms r) :
    ∃ s', out (b.run s) s' ∧ V.Read stops disconnects (V.delivered s) (ms.filter isMessage) r s' := by
  induction ms generalizing s with
  | nil =>
    have hr : V.buffer s = r := by simpa using h.eq
    cases hf : wireFront (V.buffer s) with
    | frame m rest => exact absurd (hr ▸ hf) (h.stop m rest)
    | short =>
      obtain ⟨p, s', ht, hout, hup, hbuf, hdel⟩ := hb.short hs hf
      refine ⟨s', Body.run_leave ht ▸ hout, .all (each_nil _ _) (by simp [hdel]) ?_ fun _ => hbuf.trans hr⟩
      simp [hup, ← hr, hf]
    | bad =>
      obtain ⟨p, s', ht, hout, hup, hdel⟩ := hb.bad hs hf
      refine ⟨s', Body.run_leave ht ▸ hout, .all (each_nil _ _) (by simp [hdel]) ?_ fun hup' => ?_⟩
      · simp [hup, ← hr, hf]
      · simp [hup] at hup'
  | cons m ms ih =>
    have hf : wireFront (V.buffer s) = .frame m (wire.encodeAll ms ++ r) := by
      rw [h.eq, Codec.encodeAll_cons, List.append_assoc]
      exact wire.front_encode (h.ok m List.mem_cons_self) _
    have htail : wire.Split (wire.encodeAll ms ++ r) ms r :=
      ⟨rfl, fun x hx => h.ok x (List.mem_cons_of_mem m hx), h.stop⟩
    cases hm : isMessage m with
    | false =>
      rw [List.filter_cons_of_neg (by simp [hm])]
      obtain ⟨s₁, ht, hup, hbuf, hdel⟩ := hb.skip hs hf hm
      rw [Body.run_again ht, ← hdel]
      exact ih hup (hbuf ▸ htail)
    | true =>
      rw [List.filter_cons_of_pos hm]
      cases hstop : stops (V.delivered s ++ [m]) with
      | false =>
        obtain ⟨s₁, ht, hup, hbuf, hdel⟩ := hb.deliver hs hf hm hstop
        obtain ⟨s', hout, hread⟩ := ih hup (hbuf ▸ htail)
        rw [hdel] at hread
        exact ⟨s', Body.run_again ht ▸ hout, hread.append (each_singleton.2 hstop)⟩
      | true =>
        obtain ⟨s', hout, hup, hdel, hbuf⟩ := hb.stop hs hf hm hstop
        have hfirst : m :: ms.filter isMessage = [] ++ m :: ms.filter isMessage := rfl
        exact ⟨s', hout, .stopped hfirst (each_nil _ _) (by simpa using hstop) (by simpa using hdel) hup
          (by simpa using hbuf)⟩

variable (V) in
/-- What is done with a chunk: nothing once the client has stopped, else it is appended and parsed. -/
structure Feeds (b : Body σ ρ) (out : ρ → σ → Prop) (recv : σ → Bytes → σ) : Prop where
  down : ∀ {s} c, V.up s = false → recv s c = s
  up : ∀ {s} c, V.up s = true → ∃ s₁, V.up s₁ = true ∧ V.buffer s₁ = V.buffer s ++ c ∧
    V.delivered s₁ = V.delivered s ∧ ∀ s', out (b.run s₁) s' → recv s c = s'

variable {recv : σ → Bytes → σ}

/-- One chunk. -/
theorem Read.feed (hb : V.Serves stops disconnects b out) (hrecv : V.Feeds b out recv) {g ms ns : List Bytes}
    {r c r' : Bytes} {s : σ} (h : V.Read stops disconnects g ms r s) (hs : wire.Split (r ++ c) ns r') :
    V.Read stops disconnects g (ms ++ ns.filter isMessage) r' (recv s c) := by
  cases h with
  | all quiet delivered up buffer =>
    cases hup : V.up s with
    | true =>
      obtain ⟨s₁, hup₁, hbuf₁, hdel₁, hout⟩ := hrecv.up c hup
      rw [← buffer hup, ← hbuf₁] at hs
      obtain ⟨s', hs', hread⟩ := hb.run hup₁ hs
      rw [hdel₁, delivered] at hread
      rw [hout s' hs']
      exact hread.append quiet
    | false =>
      have hbad : wireFront (r ++ c) = .bad := wire.bad_append c (up.1 hup)
      obtain ⟨rfl, rfl⟩ := (Codec.Split.nil (F := wire) (b := r ++ c) (by simp [show wire.front _ = _ from hbad])).unique hs
      rw [hrecv.down c hup, List.filter_nil, List.append_nil]
      exact .all quiet delivered (by simp [hup, hbad]) fun hup' => absurd (hup.symm.trans hup') (by simp)
  | stopped messages quiet stop delivered down buffer =>
    rw [hrecv.down c down]
    exact .stopped (by rw [messages, List.append_assoc, List.cons_append]) quiet stop delivered down buffer

/-- A listener that never stops the client: every turn only writes down what it delivers. -/
theorem Serves.parses (hb : V.Serves stops disconnects b out) (hkeep : V.keep = isMessage)
    (hstops : ∀ p, stops p = false) : V.Parses b out where
  short := hb.short
  bad := hb.bad
  frame {s m rest} hs hf := by
    rw [hkeep]
    cases hm : isMessage m with
    | false =>
      obtain ⟨s', ht, hup, hbuf, hdel⟩ := hb.skip hs hf hm
      exact ⟨s', ht, hup, hbuf, by simp [hdel, hm]⟩
    | true =>
      obtain ⟨s', ht, hup, hbuf, hdel⟩ := hb.deliver hs hf hm (hstops _)
      exact ⟨s', ht, hup, hbuf, by simp [hdel, hm]⟩

/-- Chunk by chunk the client follows the codec's receiver. -/
theorem Feeds.follows (hrecv : V.Feeds b out recv) (hp : V.Parses b out) {g : List Bytes} {s : σ}
    {a : Codec.Receiver UInt8 Bytes} (h : V.Follows g s a) (chunks : List Bytes) :
    V.Follows g (chunks.foldl recv s) (wire.feedAll a chunks) :=
  wire.feedAll_follow (P := fun _ => True) (fun {_ _ c} _ h => h.feed hp (hrecv.down c) (hrecv.up c)) (by simp) h

theorem Feeds.foldl_down (hrecv : V.Feeds b out recv) {s : σ} (h : V.up s = false) (chunks : List Bytes) :
    chunks.foldl recv s = s := by
  induction chunks with
  | nil => rfl
  | cons c cs ih => rw [List.foldl_cons, hrecv.down c h, ih]

/-- **The whole stream**, however it is cut: a client that has delivered nothing delivers the messages up to the one
that stops it, and where this one disconnects it is the last, the buffer is empty and no chunk changes anything. -/
theorem Serves.silence (hb : V.Serves stops disconnects b out) (hrecv : V.Feeds b out recv)
    (hdisc : ∀ p, disconnects p = true → stops p = true) {s : σ} (hup : V.up s = true) (hbuf : V.buffer s = [])
    (hdel : V.delivered s = []) (chunks : List Bytes) :
    let t := chunks.foldl recv s
    V.delivered t = upTo stops [] (messages chunks.flatten) ∧
      ∀ done m more, V.delivered t = done ++ m :: more → disconnects (done ++ [m]) = true →
        more = [] ∧ V.buffer t = [] ∧ ∀ later, (chunks ++ later).foldl recv s = t := by
  have hread : ∃ ms r, wire.Split chunks.flatten ms r ∧
      V.Read stops disconnects [] (ms.filter isMessage) r (chunks.foldl recv s) := by
    induction chunks using List.reverseRecOn with
    | nil =>
      refine ⟨[], [], .nil (by simp [wire.front_nil]), .all (each_nil _ _) hdel ?_ fun _ => hbuf⟩
      simpa using hup
    | append_singleton cs c ih =>
      obtain ⟨ms, r, hs, hread⟩ := ih
      obtain ⟨ns, r', hs'⟩ := wire.split_exists (r ++ c)
      refine ⟨ms ++ ns, r', ?_, ?_⟩
      · simpa using hs.append hs'
      · rw [List.foldl_append, List.filter_append]
        exact hread.feed hb hrecv hs'
  obtain ⟨ms, r, hs, hread⟩ := hread
  simp only [List.foldl_append]
  rw [messages_split hs]
  generalize chunks.foldl recv s = t at hread
  have hfail : ∀ p, disconnects p = true → ¬ stops p = false := fun p hp => by simp [hdisc p hp]
  cases hread with
  | all quiet delivered up buffer =>
    rw [List.nil_append] at delivered
    refine ⟨by rw [delivered, upTo_of_each quiet], fun done m more heq hd => ?_⟩
    refine absurd ⟨more, ?_⟩ (quiet.not_prefix (hfail _ hd))
    rw [← delivered, heq, List.append_assoc, List.singleton_append]
  | @stopped done' m' more' messages quiet stop delivered down buffer =>
    refine ⟨by rw [delivered, messages, upTo_of_first quiet stop, List.nil_append], fun done m more heq hd => ?_⟩
    rw [List.nil_append] at delivered buffer
    obtain rfl := quiet.last (delivered.symm.trans heq) (hfail _ hd)
    have hlast : done' ++ [m'] = done ++ [m] := delivered.symm.trans heq
    exact ⟨rfl, buffer (hlast ▸ hd), fun later => hrecv.foldl_down down later⟩

end View
end KnotLink
