import KnotLink.Python.TcpClient
import KnotLink.Receiver
/-!
# Python `TcpClient` on a byte stream

`processTurn_front`: with a quiet callback one turn of `_process_buffer` is one read of the codec's front,
so the receive thread follows the codec's receiver chunk by chunk (`receiveChunks_follows`). From there
`decode_undoes_send` and `hostile_stream` are facts about splits.
-/
namespace KnotLink.Python.TcpClient
open Lib

/-- One turn of the parser, told by the front of the buffer. -/
theorem processTurn_callback (cb : Option Callback) (s : TcpClient) :
    processTurn cb s = match wireFront s.buffer with
      | .short => .leave (s, none)
      | .bad => .leave ({ s with connected := false, socketOpen := false }, none)
      | .frame m r =>
        if m = heartbeatResponse then .again { s with buffer := r }
        else match handleReceivedData cb { s with buffer := r } m with
          | (s, none) => .again s
          | (s, some e) => .leave (s, some e) := by
  refine Eq.trans ?_ (parse_front s.buffer (fun _ => Iff.rfl) _ _ _)
  rfl

/-- The parser, told the same way. -/
theorem processBuffer_eq (cb : Option Callback) (s : TcpClient) :
    processBuffer cb s = match wireFront s.buffer with
      | .short => (s, none)
      | .bad => ({ s with connected := false, socketOpen := false }, none)
      | .frame m r =>
        if m = heartbeatResponse then processBuffer cb { s with buffer := r }
        else match handleReceivedData cb { s with buffer := r } m with
          | (s, none) => processBuffer cb s
          | (s, some e) => (s, some e) := by
  have ht : (processBody cb).turn s = _ := processTurn_callback cb s
  split at ht
  · exact Body.run_leave ht
  · exact Body.run_leave ht
  · rename_i m r _
    by_cases hm : m = heartbeatResponse
    · rw [if_pos hm] at ht ⊢
      exact Body.run_again ht
    · rw [if_neg hm] at ht ⊢
      split at ht
      · exact Body.run_again ht
      · exact Body.run_leave ht

/-- With a quiet callback the turn only writes down what it delivers. -/
theorem processTurn_front (s : TcpClient) :
    processTurn (some quiet) s = match wireFront s.buffer with
      | .short => .leave (s, none)
      | .bad => .leave ({ s with connected := false, socketOpen := false }, none)
      | .frame m r => .again { s with
          buffer := r
          received := if m = heartbeatResponse then s.received else s.received ++ [m] } := by
  rw [processTurn_callback]
  split
  · rfl
  · rfl
  · rename_i m r _
    by_cases hm : m = heartbeatResponse
    · simp [hm]
    · simp [hm, handleReceivedData, quiet]

def view : View TcpClient := ⟨connected, buffer, received, isMessage⟩

theorem processBody_parses :
    view.Parses (processBody (some quiet)) (fun p s => p = (s, none)) where
  short {s} hs hf := by
    have ht := processTurn_front s
    rw [show wireFront s.buffer = .short from hf] at ht
    exact ⟨_, s, ht, rfl, hs, rfl, rfl⟩
  bad {s} hs hf := by
    have ht := processTurn_front s
    rw [show wireFront s.buffer = .bad from hf] at ht
    exact ⟨_, _, ht, rfl, rfl, rfl⟩
  frame {s m r} hs hf := by
    have ht := processTurn_front s
    rw [show wireFront s.buffer = .frame m r from hf] at ht
    refine ⟨_, ht, hs, rfl, ?_⟩
    by_cases hm : m = heartbeatResponse <;> simp [view, filter_isMessage_singleton, hm]

/-- Chunk by chunk the receive thread does what the codec's receiver does. -/
theorem receiveChunks_follows {g : List Bytes} {chunks : List Bytes} (hne : ∀ c ∈ chunks, c ≠ []) :
    ∀ {s : TcpClient} {a : Codec.Receiver UInt8 Bytes}, view.Follows g s a →
      view.Follows g (receiveChunks (some quiet) s chunks) (wire.feedAll a chunks) := by
  induction chunks with
  | nil =>
    intro s a h
    exact h
  | cons c cs ih =>
    intro s a h
    have hc : c ≠ [] := hne c (by simp)
    by_cases hu : s.connected = true
    · obtain ⟨s', hp, hf⟩ : ∃ s', processBuffer (some quiet) { s with buffer := s.buffer ++ c } = (s', none) ∧
          view.Follows g s' (wire.feed a c) := by
        obtain ⟨s', hp, -⟩ := processBody_parses.run (g := g) (s := { s with buffer := s.buffer ++ c })
          (a := { a with buffer := a.buffer ++ c })
          ⟨h.up, fun ha => congrArg (· ++ c) (h.buffer ha), h.delivered⟩ (h.up.symm.trans hu)
        exact ⟨s', hp, h.feed processBody_parses (fun hd => absurd (hu.symm.trans hd) (by simp)) fun _ =>
          ⟨{ s with buffer := s.buffer ++ c }, hu, rfl, rfl, fun s'' ho => by
            have := hp.symm.trans ho
            exact congrArg Prod.fst this⟩⟩
      have hgo : receiveChunks (some quiet) s (c :: cs) = receiveChunks (some quiet) s' cs := by
        rw [receiveChunks, List.map_cons, receiveData, if_pos hu, receiveTurn, if_neg hc, hp]
        rfl
      rw [hgo]
      exact ih (fun x hx => hne x (by simp [hx])) hf
    · have hd : s.connected = false := by simpa using hu
      rw [wire.feedAll_down (h.up.symm.trans hd)]
      simpa [receiveChunks, receiveData, hd] using h

theorem receiveData_append (cb : Option Callback) (s : TcpClient) (rs rs' : List Recv) :
    receiveData cb s (rs ++ rs') = match receiveData cb s rs with
      | (s, .receiving) => receiveData cb s rs'
      | out => out := by
  induction rs generalizing s with
  | nil =>
    by_cases hs : s.connected = true
    · simp [receiveData, hs]
    · have hs : s.connected = false := by simpa using hs
      cases rs' <;> simp [receiveData, hs]
  | cons r rs ih =>
    rw [List.cons_append, receiveData, receiveData]
    split
    · cases h : receiveTurn cb s r with
      | mk s' th =>
        cases th with
        | receiving => exact ih s'
        | ended | died => rfl
    · rfl

theorem receiveData_append_receiving {cb : Option Callback} {s : TcpClient} {rs : List Recv}
    (h : (receiveData cb s rs).2 = .receiving) (rs' : List Recv) :
    receiveData cb s (rs ++ rs') = receiveData cb (receiveData cb s rs).1 rs' := by
  rw [receiveData_append]
  generalize receiveData cb s rs = p at h
  obtain ⟨s', th⟩ := p
  obtain rfl : th = .receiving := h
  rfl

theorem receiveData_append_stopped {cb : Option Callback} {s : TcpClient} {rs : List Recv}
    (h : (receiveData cb s rs).2 ≠ .receiving) (rs' : List Recv) : receiveData cb s (rs ++ rs') = receiveData cb s rs := by
  rw [receiveData_append]
  generalize receiveData cb s rs = p at h
  obtain ⟨s', th⟩ := p
  cases th with
  | receiving => exact absurd rfl h
  | ended | died => rfl

/-- The thread goes on only while the client is connected. -/
theorem connected_of_receiving {cb : Option Callback} {s : TcpClient} {rs : List Recv}
    (h : (receiveData cb s rs).2 = .receiving) : (receiveData cb s rs).1.connected = true := by
  induction rs generalizing s with
  | nil =>
    simp only [receiveData] at h ⊢
    split at h
    · assumption
    · cases h
  | cons r rs ih =>
    rw [receiveData] at h ⊢
    split at h
    · rename_i hs
      rw [if_pos hs]
      cases hr : receiveTurn cb s r with
      | mk s' th =>
        rw [hr] at h
        cases th with
        | receiving => exact ih h
        | ended | died => cases h
    · cases h

/-- Once the thread has given up, what the socket still holds is never read. -/
theorem receiveData_down {cb : Option Callback} {s : TcpClient} {rs : List Recv}
    (h : (receiveData cb s rs).1.connected = false) (more : List Recv) :
    receiveData cb s (rs ++ more) = receiveData cb s rs := by
  refine receiveData_append_stopped (fun hgo => ?_) more
  rw [connected_of_receiving hgo] at h
  cases h

theorem receiveChunks_down {cb : Option Callback} {s : TcpClient} {chunks : List Bytes}
    (h : (receiveChunks cb s chunks).connected = false) (more : List Bytes) :
    receiveChunks cb s (chunks ++ more) = receiveChunks cb s chunks := by
  rw [receiveChunks, List.map_append, receiveData_down h]
  rfl

/-- A connected client with an empty buffer reads the split of its stream, however it is cut. -/
theorem receiveChunks_split {s : TcpClient} (hs : s.connected = true) (hb : s.buffer = []) {chunks : List Bytes}
    (hne : ∀ c ∈ chunks, c ≠ []) {ms : List Bytes} {r : Bytes} (h : wire.Split chunks.flatten ms r) :
    (receiveChunks (some quiet) s chunks).received = s.received ++ ms.filter isMessage ∧
      ((receiveChunks (some quiet) s chunks).connected = false ↔ wireFront r = .bad) ∧
      ((receiveChunks (some quiet) s chunks).connected = true →
        (receiveChunks (some quiet) s chunks).buffer = r) := by
  have h0 : view.Follows s.received s ⟨[], [], true⟩ := View.follows_fresh hs hb
  exact (receiveChunks_follows hne h0).split h

/-- Whole frames, however cut, are read to the end. -/
theorem receiveChunks_frames {s : TcpClient} (hs : s.connected = true) (hb : s.buffer = [])
    {payloads chunks : List Bytes} (hp : ∀ p ∈ payloads, Admissible p) (hne : ∀ c ∈ chunks, c ≠ [])
    (hcut : chunks.flatten = wire.encodeAll payloads) :
    (receiveChunks (some quiet) s chunks).received = s.received ++ payloads.filter isMessage ∧
      (receiveChunks (some quiet) s chunks).buffer = [] ∧
      (receiveChunks (some quiet) s chunks).connected = true := by
  have h0 : view.Follows s.received s ⟨[], [], true⟩ := View.follows_fresh hs hb
  obtain ⟨hup, hbuf, hrec⟩ := (receiveChunks_follows hne h0).frames hp hcut
  exact ⟨hrec, hbuf, hup⟩

/-! ## One message -/

/-- Receiving writes nothing: the parser … -/
theorem processBuffer_sent (s : TcpClient) : (processBuffer (some quiet) s).1.sent = s.sent := by
  apply Body.run_rule (processBody (some quiet)) (I := fun t => t.sent = s.sent) (Q := fun r => r.1.sent = s.sent)
  · intro t t' hI ht
    have hv := (processTurn_front t).symm.trans ht
    split at hv <;> cases hv
    exact hI
  · intro t r hI ht
    have hv := (processTurn_front t).symm.trans ht
    split at hv <;> cases hv <;> exact hI
  · rfl

/-- … a turn of the receive thread … -/
theorem receiveTurn_sent (s : TcpClient) (r : Recv) : (receiveTurn (some quiet) s r).1.sent = s.sent := by
  cases r with
  | error => rfl
  | chunk c =>
    have hp := processBuffer_sent { s with buffer := s.buffer ++ c }
    rw [receiveTurn]
    split
    · rfl
    · split <;> rename_i heq <;> rw [heq] at hp <;> exact hp

/-- … and the whole thread. -/
theorem receiveChunks_sent (chunks : List Bytes) (s : TcpClient) :
    (receiveChunks (some quiet) s chunks).sent = s.sent := by
  induction chunks generalizing s with
  | nil => rfl
  | cons c cs ih =>
    have ht := receiveTurn_sent s (.chunk c)
    rw [receiveChunks, List.map_cons, receiveData]
    split
    · split
      · rename_i s' heq
        rw [heq] at ht
        exact (ih s').trans ht
      · exact ht
    · rfl

/-- One message other than a heartbeat response, in two portions: it is delivered with the one that
completes its frame. -/
theorem receiveChunks_message {s : TcpClient} (hs : s.connected = true) (hb : s.buffer = []) {m : Bytes}
    (hm : Admissible m) (hmsg : isMessage m = true) {early late : List Bytes}
    (hne : ∀ c ∈ early ++ late, c ≠ []) (hcut : (early ++ late).flatten = frame m) :
    (receiveChunks (some quiet) s early).received = s.received ++ [m] ∨
    ((receiveChunks (some quiet) s early).received = s.received ∧
      (receiveChunks (some quiet) (receiveChunks (some quiet) s early) late).received = s.received ++ [m]) := by
  have h0 : view.Follows s.received s ⟨[], [], true⟩ := View.follows_fresh hs hb
  have hearly : ∀ c ∈ early, c ≠ [] := fun c hc => hne c (by simp [hc])
  have hlate : ∀ c ∈ late, c ≠ [] := fun c hc => hne c (by simp [hc])
  have h1 := receiveChunks_follows hearly h0
  have h2 := receiveChunks_follows hlate h1
  rw [Codec.feedAll, Codec.feedAll, ← List.foldl_append] at h2
  have hone : [m].filter isMessage = [m] := by simp [hmsg]
  have hall : wire.Split (early ++ late).flatten [m] [] := by
    have hok : ∀ x ∈ [m], wire.Ok x := by
      intro x hx
      rw [List.mem_singleton.1 hx]
      exact hm
    rw [hcut]
    simpa using Codec.split_encodeAll hok
  obtain ⟨ms, r, hsplit⟩ := wire.split_exists early.flatten
  have hpre : ms <+: [m] := by
    have heq : (early ++ late).flatten = wire.encodeAll ms ++ (r ++ late.flatten) := by
      rw [List.flatten_append, hsplit.eq, List.append_assoc]
    exact hall.longest hsplit.ok heq
  have hrec := (h1.split hsplit).1
  rcases ms with _ | ⟨x, ms⟩
  · refine .inr ⟨by simpa [view] using hrec, ?_⟩
    have := (h2.split hall).1
    rwa [show view.keep = isMessage from rfl, hone] at this
  · obtain ⟨rfl, hms⟩ := List.cons_prefix_cons.1 hpre
    obtain rfl := List.prefix_nil.1 hms
    refine .inl ?_
    rwa [show view.keep = isMessage from rfl, hone] at hrec

/-- **Decoding undoes sending** under any segmentation: payloads of admissible length sent one after
another come out of the receive thread once each, in order, heartbeat responses apart, and leave nothing
behind. -/
theorem decode_undoes_send (sender receiver : TcpClient) (payloads chunks : List Bytes)
    (hs : sender.connected = true) (hr : receiver.connected = true) (hb : receiver.buffer = [])
    (hp : ∀ p ∈ payloads, Admissible p) (hne : ∀ c ∈ chunks, c ≠ [])
    (hcut : (sender.sendEach payloads).sent = sender.sent ++ chunks.flatten) :
    (receiveChunks (some quiet) receiver chunks).received =
        receiver.received ++ payloads.filter isMessage ∧
      (receiveChunks (some quiet) receiver chunks).buffer = [] ∧
      (receiveChunks (some quiet) receiver chunks).connected = true := by
  have hstream : chunks.flatten = wire.encodeAll payloads := by
    rw [sendEach_sent hp hs] at hcut
    exact (List.append_cancel_left hcut).symm
  exact receiveChunks_frames hr hb hp hne hstream

/-- `heartbeat_response` between two payloads, cut inside the magic, a length and a body. -/
theorem decode_undoes_send_three :
    let sender : TcpClient := ⟨true, true, [], [], []⟩
    let wire := (sender.sendEach [ascii "ab", heartbeatResponse, ascii "KK"]).sent
    let chunks := [wire.take 2, slice wire 2 15, slice wire 15 30, wire.drop 30]
    (receiveChunks (some quiet) sender chunks).received = [ascii "ab", ascii "KK"] :=
  (decode_undoes_send ⟨true, true, [], [], []⟩ ⟨true, true, [], [], []⟩
    [ascii "ab", heartbeatResponse, ascii "KK"] _ rfl rfl rfl (by decide) (by decide) (by decide)).1

/-- **Any input, hostile or not.** Every byte string is its longest list of valid frames and a rest; the
thread delivers the bodies of the frames whatever the chunks, gives up exactly when the rest has a
complete bad header, after which nothing changes any more, and otherwise keeps exactly the rest, which
is bounded. -/
theorem hostile_stream (stream : Bytes) : ∃ (ms : List Bytes) (r : Bytes),
    stream = (ms.map frame).flatten ++ r ∧ (∀ m ∈ ms, Admissible m) ∧
    (∀ (ns : List Bytes) (r' : Bytes), (∀ n ∈ ns, Admissible n) → stream = (ns.map frame).flatten ++ r' →
      ns <+: ms) ∧
    ∀ (s : TcpClient) (chunks : List Bytes), s.connected = true → s.buffer = [] → (∀ c ∈ chunks, c ≠ []) →
      chunks.flatten = stream →
      let out := receiveChunks (some quiet) s chunks
      out.received = s.received ++ ms.filter isMessage ∧
      (out.connected = false ↔ HEADER_LEN ≤ r.length ∧
        (r.take MAGIC_LEN ≠ MAGIC ∨ lengthField r = 0 ∨ lengthField r > MAX_MSG_SIZE)) ∧
      (out.connected = false → ∀ more, receiveChunks (some quiet) s (chunks ++ more) = out) ∧
      (out.connected = true → out.buffer = r ∧ r.length < HEADER_LEN + MAX_MSG_SIZE) := by
  obtain ⟨ms, r, hsplit⟩ := wire.split_exists stream
  have hbad : wireFront r = .bad ↔ HEADER_LEN ≤ r.length ∧
      (r.take MAGIC_LEN ≠ MAGIC ∨ lengthField r = 0 ∨ lengthField r > MAX_MSG_SIZE) := by
    rw [wireFront_bad, GoodHeader]
    have : MAX_MSG_SIZE < lengthField r ↔ ¬ lengthField r ≤ MAX_MSG_SIZE := Nat.not_le.symm
    grind
  refine ⟨ms, r, by rw [← wire_encodeAll]; exact hsplit.eq, hsplit.ok,
    fun ns r' hok he => hsplit.longest hok (by rw [wire_encodeAll]; exact he), ?_⟩
  intro s chunks hs hb hne hcut out
  subst hcut
  obtain ⟨hrec, hup, hbuf⟩ := receiveChunks_split hs hb hne hsplit
  refine ⟨hrec, hup.trans hbad, ?_, fun hc => ⟨hbuf hc, ?_⟩⟩
  · intro hdown more
    exact receiveChunks_down hdown more
  · have hgood : ¬ (HEADER_LEN ≤ r.length ∧ ¬ GoodHeader r) := by
      rw [← wireFront_bad, ← hup, Bool.not_eq_false]; exact hc
    rcases split_rest_cases hsplit with h | ⟨hg, h⟩ | h
    · exact Nat.lt_of_lt_of_le h (Nat.le_add_right _ _)
    · exact Nat.lt_of_lt_of_le h (Nat.add_le_add_left hg.2.2 _)
    · exact absurd h hgood

/-- A frame and then eight zero bytes, cut inside the magic. -/
theorem hostile_stream_zeros :
    let stream := frame (ascii "ab") ++ List.replicate 8 0
    let out := receiveChunks (some quiet) ⟨true, true, [], [], []⟩ [stream.take 3, stream.drop 3]
    ∃ ms r : List _, stream = (ms.map frame).flatten ++ r ∧ out.received = ms.filter isMessage ∧
      (out.connected = false ↔ HEADER_LEN ≤ r.length ∧
        (r.take MAGIC_LEN ≠ MAGIC ∨ lengthField r = 0 ∨ lengthField r > MAX_MSG_SIZE)) := by
  obtain ⟨ms, r, heq, -, -, h⟩ := hostile_stream (frame (ascii "ab") ++ List.replicate 8 0)
  have hout := h ⟨true, true, [], [], []⟩ [(frame (ascii "ab") ++ List.replicate 8 0).take 3,
    (frame (ascii "ab") ++ List.replicate 8 0).drop 3] rfl rfl (by decide) (by decide)
  exact ⟨ms, r, heq, hout.1, hout.2.1⟩

end KnotLink.Python.TcpClient
