import KnotLink.Lib.History
import KnotLink.Python.Stream
/-!
# Callbacks that disconnect

`disconnect` ends the loop of `receive_data`, which looks at `connected`, but not the one of `_process_buffer`
(tcpclient.py:111), which does not: a callback that disconnects is called again for every complete message that is
still in the buffer, unless it raises. So it is the last call exactly if the chunk that completed its message has
completed no other one (`silent_iff`).
-/
namespace KnotLink.Python.TcpClient
open Lib

variable {cb : Callback} {s : TcpClient}

/-- This call returns and leaves the client alone. -/
def Calm (cb : Callback) (ms : List Bytes) : Prop := cb ms = ⟨false, none⟩

/-! ## One buffer -/

theorem handleReceivedData_quiet {m : Bytes} (h : cb (s.received ++ [m]) = ⟨false, none⟩) :
    handleReceivedData (some cb) s m = ({ s with received := s.received ++ [m] }, none) := by
  simp [handleReceivedData, h]

theorem received_handleReceivedData (cb : Callback) (s : TcpClient) (m : Bytes) :
    (handleReceivedData (some cb) s m).1.received = s.received ++ [m] := by
  unfold handleReceivedData disconnect
  dsimp only
  split <;> rfl

/-- What the parser does in front of a frame. -/
theorem processBuffer_frame {m : Bytes} (hm : Admissible m) (r : Bytes) :
    processBuffer (some cb) { s with buffer := frame m ++ r } =
      if m = heartbeatResponse then processBuffer (some cb) { s with buffer := r }
      else match handleReceivedData (some cb) { s with buffer := r } m with
        | (s, none) => processBuffer (some cb) s
        | (s, some e) => (s, some e) := by
  have hf : wireFront (frame m ++ r) = .frame m r := wireFront_frame.2 ⟨hm, rfl⟩
  have h := processBuffer_eq (some cb) { s with buffer := frame m ++ r }
  simp only [hf] at h
  exact h

/-- The parser passes over messages whose calls are quiet. -/
theorem processBuffer_skip {ns : List Bytes} (hok : ∀ n ∈ ns, Admissible n) (r : Bytes)
    (hquiet : Each (Calm cb) s.received (ns.filter isMessage)) :
    processBuffer (some cb) { s with buffer := wire.encodeAll ns ++ r } =
      processBuffer (some cb) { s with buffer := r, received := s.received ++ ns.filter isMessage } := by
  induction ns generalizing s with
  | nil => simp
  | cons n ns ih =>
    have hn := hok n List.mem_cons_self
    have hns : ∀ x ∈ ns, Admissible x := fun x hx => hok x (List.mem_cons_of_mem n hx)
    rw [Codec.encodeAll_cons, List.append_assoc, wire_encode, processBuffer_frame hn]
    by_cases hb : n = heartbeatResponse
    · rw [if_pos hb]
      rw [List.filter_cons_of_neg (by simp [isMessage, hb])] at hquiet ⊢
      exact ih hns hquiet
    · have hmsg : isMessage n = true := by simp [isMessage, hb]
      rw [if_neg hb]
      rw [List.filter_cons_of_pos hmsg] at hquiet ⊢
      obtain ⟨hcall, hrest⟩ := each_cons.1 hquiet
      rw [handleReceivedData_quiet (s := { s with buffer := wire.encodeAll ns ++ r }) hcall]
      have := ih (s := { s with received := s.received ++ [n] }) hns hrest
      rw [List.append_assoc] at this
      exact this

/-- Whatever the callback does, the parser gives it messages of the buffer, and the first one in any case. -/
theorem processBuffer_received {b r : Bytes} {ns : List Bytes} (h : wire.Split b ns r) :
    ∃ more, (processBuffer (some cb) { s with buffer := b }).1.received = s.received ++ more ∧
      more <+: ns.filter isMessage ∧ (ns.filter isMessage ≠ [] → more ≠ []) := by
  induction ns generalizing s b with
  | nil =>
    obtain rfl : b = r := by simpa using h.eq
    refine ⟨[], ?_, List.nil_prefix, fun hne => absurd rfl hne⟩
    rw [List.append_nil, processBuffer_eq]
    cases hf : wireFront b with
    | frame m r => exact absurd hf (h.stop m r)
    | bad | short => rfl
  | cons n ns ih =>
    have hn := h.ok n List.mem_cons_self
    have htail : wire.Split (wire.encodeAll ns ++ r) ns r :=
      ⟨rfl, fun x hx => h.ok x (List.mem_cons_of_mem n hx), h.stop⟩
    rw [h.eq, Codec.encodeAll_cons, List.append_assoc, wire_encode, processBuffer_frame hn]
    by_cases hb : n = heartbeatResponse
    · rw [if_pos hb, List.filter_cons_of_neg (by simp [isMessage, hb])]
      exact ih htail
    · rw [if_neg hb, List.filter_cons_of_pos (by simp [isMessage, hb])]
      have hrec := received_handleReceivedData cb { s with buffer := wire.encodeAll ns ++ r } n
      have hbuf := handleReceivedData_buffer (some cb) { s with buffer := wire.encodeAll ns ++ r } n
      generalize handleReceivedData (some cb) { s with buffer := wire.encodeAll ns ++ r } n = p at hrec hbuf
      obtain ⟨⟨connected, socketOpen, buffer, received, sent⟩, _ | e⟩ := p
      · obtain rfl : buffer = wire.encodeAll ns ++ r := hbuf
        obtain rfl : received = s.received ++ [n] := hrec
        obtain ⟨more, hmore, hpre, -⟩ := ih (s := ⟨connected, socketOpen, [], s.received ++ [n], sent⟩) htail
        exact ⟨n :: more, by rw [hmore, List.append_assoc]; rfl, List.cons_prefix_cons.2 ⟨rfl, hpre⟩, by simp⟩
      · exact ⟨[n], hrec, by simp, by simp⟩

/-- Without a frame in front the callback is not asked. -/
theorem processBuffer_congr {cb' : Callback} (h : ∀ m r, wireFront s.buffer ≠ .frame m r) :
    processBuffer (some cb) s = processBuffer (some cb') s := by
  rw [processBuffer_eq, processBuffer_eq]
  cases hf : wireFront s.buffer with
  | frame m r => exact absurd hf (h m r)
  | bad | short => rfl

theorem connected_handleReceivedData (h : s.connected = false) (cb : Option Callback) (m : Bytes) :
    (handleReceivedData cb s m).1.connected = false := by
  unfold handleReceivedData disconnect
  split
  · exact h
  · dsimp only
    split
    · rfl
    · exact h

theorem connected_processTurn (h : s.connected = false) (cb : Option Callback) :
    (∀ t, processTurn cb s = .again t → t.connected = false) ∧
      ∀ p, processTurn cb s = .leave p → p.1.connected = false := by
  rw [processTurn_callback]
  cases wireFront s.buffer with
  | short => simp [h]
  | bad => simp
  | frame m r =>
    have hc := connected_handleReceivedData (s := { s with buffer := r }) h cb m
    dsimp only
    split
    · simp [h]
    · generalize handleReceivedData cb { s with buffer := r } m = p at hc
      obtain ⟨s', _ | e⟩ := p
      · simpa using hc
      · simpa using hc

/-- Nothing connects again. -/
theorem connected_processBuffer (h : s.connected = false) (cb : Option Callback) :
    (processBuffer cb s).1.connected = false := by
  apply Body.run_rule (processBody cb) (I := fun s => s.connected = false) (Q := fun p => p.1.connected = false)
  · exact fun ht => (connected_processTurn ht cb).1 _
  · exact fun ht => (connected_processTurn ht cb).2 _
  · exact h

/-! ## The thread -/

theorem processBuffer_quiet (s : TcpClient) : (processBuffer (some quiet) s).2 = none := by
  refine (processBody (some quiet)).run_rule (I := fun _ => True) (Q := fun p => p.2 = none)
    (fun _ _ => trivial) (fun {t p} _ h => ?_) trivial
  have hturn := (processTurn_front t).symm.trans h
  split at hturn <;> cases hturn <;> rfl

/-- With a quiet callback the thread ends only when the client is not connected. -/
theorem receiving_quiet {chunks : List Bytes} (hne : ∀ c ∈ chunks, c ≠ [])
    (h : (receiveChunks (some quiet) s chunks).connected = true) :
    (receiveData (some quiet) s (chunks.map .chunk)).2 = .receiving := by
  induction chunks generalizing s with
  | nil => exact if_pos h
  | cons c cs ih =>
    have hc : c ≠ [] := hne c List.mem_cons_self
    have hcs : ∀ x ∈ cs, x ≠ [] := fun x hx => hne x (List.mem_cons_of_mem c hx)
    rw [receiveChunks] at h
    rw [List.map_cons, receiveData] at h ⊢
    split at h
    · rename_i hs
      rw [if_pos hs]
      rw [receiveTurn, if_neg hc] at h ⊢
      have hnone := processBuffer_quiet { s with buffer := s.buffer ++ c }
      generalize processBuffer (some quiet) { s with buffer := s.buffer ++ c } = p at h hnone
      obtain ⟨s', e⟩ := p
      obtain rfl : e = none := hnone
      exact ih hcs h
    · rename_i hs
      exact absurd h hs

/-- A chunk whose parsing ends the loop, by an exception or since the client is not connected. -/
theorem receiveData_last {cb : Callback} {c : Bytes} (hs : s.connected = true) (hc : c ≠ [])
    (hdown : (processBuffer (some cb) { s with buffer := s.buffer ++ c }).2 = none →
      (processBuffer (some cb) { s with buffer := s.buffer ++ c }).1.connected = false) :
    (receiveData (some cb) s [.chunk c]).2 ≠ .receiving ∧ (receiveData (some cb) s [.chunk c]).1.received =
      (processBuffer (some cb) { s with buffer := s.buffer ++ c }).1.received := by
  rw [receiveData, if_pos hs, receiveTurn, if_neg hc]
  generalize processBuffer (some cb) { s with buffer := s.buffer ++ c } = p at hdown
  obtain ⟨s', e⟩ := p
  cases e with
  | none =>
    have hs' : s'.connected = false := hdown rfl
    simp [receiveData, hs']
  | some e => cases e <;> exact ⟨by simp, rfl⟩

/-! ## The first call that is not quiet -/

/-- The first call that is not quiet is for `m`, behind the messages `done`; `chunk` completes `m`, and `more`
messages behind it. -/
structure FirstLoud (cb : Callback) (chunks early : List Bytes) (chunk : Bytes) (later done : List Bytes) (m : Bytes)
    (more : List Bytes) : Prop where
  chunks_eq : chunks = early ++ chunk :: later
  before : messages early.flatten <+: done
  upto : messages (early ++ [chunk]).flatten = done ++ m :: more
  quiet : Each (Calm cb) [] done
  loud : ¬ Calm cb (done ++ [m])

/-- What the parser does in front of a message whose call is not quiet: it gives the callback that message, and more
only if the call returns; and it does not leave a connected client for the loop of `receive_data`. -/
theorem processBuffer_loud {b r m : Bytes} {ns : List Bytes} (hm : Admissible m) (hmsg : isMessage m = true)
    (h : wire.Split b ns r) (hloud : ¬ Calm cb (s.received ++ [m])) :
    let out := processBuffer (some cb) { s with buffer := frame m ++ b }
    ∃ rest, out.1.received = s.received ++ m :: rest ∧ rest <+: ns.filter isMessage ∧
      ((cb (s.received ++ [m])).raises ≠ none → rest = []) ∧
      ((cb (s.received ++ [m])).raises = none → ns.filter isMessage ≠ [] → rest ≠ []) ∧
      (out.2 = none → out.1.connected = false) := by
  have hne : m ≠ heartbeatResponse := by simpa [isMessage] using hmsg
  rw [processBuffer_frame hm, if_neg hne]
  rw [Calm] at hloud
  simp only [handleReceivedData]
  generalize cb (s.received ++ [m]) = reaction at hloud
  obtain ⟨disc, raises⟩ := reaction
  cases raises with
  | some e =>
    refine ⟨[], ?_, List.nil_prefix, fun _ => rfl, fun h => absurd h (by simp), fun h => absurd h (by simp)⟩
    cases disc <;> rfl
  | none =>
    obtain rfl : disc = true := by
      cases disc with
      | true => rfl
      | false => exact absurd rfl hloud
    let down : TcpClient := { s with received := s.received ++ [m], connected := false, socketOpen := false }
    have hrec : ∃ rest, (processBuffer (some cb) { down with buffer := b }).1.received = down.received ++ rest ∧ _ :=
      processBuffer_received h
    obtain ⟨rest, hrest, hpre, hsome⟩ := hrec
    refine ⟨rest, by simpa [down, disconnect] using hrest, hpre, fun hr => absurd rfl hr, fun _ => hsome, fun _ => ?_⟩
    exact connected_processBuffer (s := { down with buffer := b }) rfl (some cb)

/-- The same, with quiet messages in front. -/
theorem processBuffer_firstLoud {b r : Bytes} {ns done more : List Bytes} {m : Bytes} (h : wire.Split b ns r)
    (hns : ns.filter isMessage = done ++ m :: more) (hquiet : Each (Calm cb) s.received done)
    (hloud : ¬ Calm cb (s.received ++ done ++ [m])) :
    let out := processBuffer (some cb) { s with buffer := b }
    ∃ rest, out.1.received = s.received ++ done ++ m :: rest ∧ rest <+: more ∧
      ((cb (s.received ++ done ++ [m])).raises ≠ none → rest = []) ∧
      ((cb (s.received ++ done ++ [m])).raises = none → more ≠ [] → rest ≠ []) ∧
      (out.2 = none → out.1.connected = false) := by
  obtain ⟨l₁, l₂, rfl, rfl, hl₂⟩ := List.filter_eq_append_iff.1 hns
  obtain ⟨l₃, l₄, rfl, hl₃, hm, rfl⟩ := List.filter_eq_cons_iff.1 hl₂
  have hskip : (l₁ ++ l₃).filter isMessage = l₁.filter isMessage := by
    rw [List.filter_append, List.filter_eq_nil_iff.2 hl₃, List.append_nil]
  have hok : ∀ n ∈ l₁ ++ l₃, Admissible n := fun n hn => h.ok n (by simp at hn ⊢; tauto)
  have htail : wire.Split (wire.encodeAll l₄ ++ r) l₄ r := ⟨rfl, fun n hn => h.ok n (by simp [hn]), h.stop⟩
  have hb : b = wire.encodeAll (l₁ ++ l₃) ++ (frame m ++ (wire.encodeAll l₄ ++ r)) := by
    rw [h.eq]
    simp
  rw [← hskip] at hquiet hloud ⊢
  rw [hb, processBuffer_skip hok _ hquiet]
  exact processBuffer_loud (s := { s with received := s.received ++ (l₁ ++ l₃).filter isMessage })
    (h.ok m (by simp)) hm htail hloud

/-- A chunk that completes messages whose calls are quiet. -/
theorem receiveData_quiet {c r : Bytes} {ns : List Bytes} (h : wire.Split (s.buffer ++ c) ns r)
    (hquiet : Each (Calm cb) s.received (ns.filter isMessage)) :
    receiveData (some cb) s [.chunk c] = receiveData (some quiet) s [.chunk c] := by
  have hstop : ∀ m rest, wireFront { s with buffer := r, received := s.received ++ ns.filter isMessage }.buffer ≠
      .frame m rest := h.stop
  have hparse : processBuffer (some cb) { s with buffer := s.buffer ++ c } =
      processBuffer (some quiet) { s with buffer := s.buffer ++ c } := by
    have hskip : processBuffer (some quiet) { s with buffer := wire.encodeAll ns ++ r } = _ :=
      processBuffer_skip h.ok r fun _ _ _ => rfl
    rw [h.eq, processBuffer_skip h.ok r hquiet, hskip]
    exact processBuffer_congr hstop
  simp only [receiveData, receiveTurn, hparse]

/-! ## Whole runs -/

theorem FirstLoud.later {chunks early later done more : List Bytes} {chunk m : Bytes}
    (h : FirstLoud cb chunks early chunk later done m more) (c : Bytes) :
    FirstLoud cb (chunks ++ [c]) early chunk (later ++ [c]) done m more where
  chunks_eq := by rw [h.chunks_eq, List.append_assoc, List.cons_append]
  before := h.before
  upto := h.upto
  quiet := h.quiet
  loud := h.loud

/-- Every call of the run is quiet, and the callback makes no difference. -/
structure QuietRun (cb : Callback) (chunks : List Bytes) : Prop where
  calm : Each (Calm cb) [] (messages chunks.flatten)
  same : receiveData (some cb) fresh (chunks.map .chunk) = receiveData (some quiet) fresh (chunks.map .chunk)

/-- A call is not quiet, and the thread stops with the chunk that brings its message; `rest` is what the callback is
given behind that message. -/
structure LoudRun (cb : Callback) (chunks early : List Bytes) (chunk : Bytes) (later done : List Bytes) (m : Bytes)
    (more rest : List Bytes) : Prop where
  first : FirstLoud cb chunks early chunk later done m more
  stopped : (receiveData (some cb) fresh (chunks.map .chunk)).2 ≠ .receiving
  received : (receiveChunks (some cb) fresh chunks).received = done ++ m :: rest
  rest_prefix : rest <+: more
  raises : (cb (done ++ [m])).raises ≠ none → rest = []
  returns : (cb (done ++ [m])).raises = none → more ≠ [] → rest ≠ []

theorem quietRun_nil (cb : Callback) : QuietRun cb [] := by
  refine ⟨?_, rfl⟩
  rw [List.flatten_nil, messages_of_drained (by simp)]
  exact each_nil _ []

/-- One more chunk, with the thread still receiving. -/
theorem QuietRun.receiving {cs : List Bytes} {c : Bytes} (h : QuietRun cb cs) (hcs : ∀ x ∈ cs, x ≠ []) (hc : c ≠ [])
    (hgo : (receiveData (some quiet) fresh (cs.map .chunk)).2 = .receiving) : QuietRun cb (cs ++ [c]) ∨
      ∃ done m more rest, LoudRun cb (cs ++ [c]) cs c [] done m more rest := by
  obtain ⟨ms, r, hsplit⟩ := wire.split_exists cs.flatten
  have hms := messages_split hsplit
  have hcalm := h.calm
  rw [hms] at hcalm
  have hup : (receiveChunks (some quiet) fresh cs).connected = true := connected_of_receiving hgo
  have hgo' : (receiveData (some cb) fresh (cs.map .chunk)).2 = .receiving := by rw [h.same, hgo]
  have hrun : ∀ cb' : Callback, (receiveData (some cb') fresh (cs.map .chunk)).2 = .receiving →
      (receiveData (some cb') fresh (cs.map .chunk)).1 = (receiveData (some quiet) fresh (cs.map .chunk)).1 →
      receiveData (some cb') fresh ((cs ++ [c]).map .chunk) =
        receiveData (some cb') (receiveChunks (some quiet) fresh cs) [.chunk c] := by
    intro cb' hgo hsame
    rw [List.map_append, receiveData_append_receiving hgo, hsame]
    rfl
  have hcb := hrun cb hgo' (by rw [h.same])
  have hquiet := hrun quiet hgo rfl
  -- where the thread stands in front of the chunk
  obtain ⟨hrec, -, hbuf⟩ := receiveChunks_split (s := fresh) rfl rfl hcs hsplit
  generalize receiveChunks (some quiet) fresh cs = t at hrec hbuf hup hcb hquiet
  obtain rfl : t.buffer = r := hbuf hup
  have hrec : t.received = ms.filter isMessage := hrec
  obtain ⟨ns, r', hsplit'⟩ := wire.split_exists (t.buffer ++ c)
  have hall : messages (cs ++ [c]).flatten = ms.filter isMessage ++ ns.filter isMessage := by
    rw [List.flatten_append, List.flatten_singleton, messages_split (hsplit.append hsplit'), List.filter_append]
  by_cases hq : Each (Calm cb) (ms.filter isMessage) (ns.filter isMessage)
  · refine .inl ⟨?_, ?_⟩
    · rw [hall]
      exact each_append.2 ⟨hcalm, hq⟩
    · rw [hcb, hquiet]
      exact receiveData_quiet hsplit' (hrec ▸ hq)
  · obtain ⟨done, m, more, hns, hdone, hloud⟩ := exists_first hq
    rw [← hrec] at hloud hdone
    obtain ⟨rest, hrest, hpre, hraises, hreturns, hdisc⟩ := processBuffer_firstLoud hsplit' hns hdone hloud
    obtain ⟨hstop, hlast⟩ := receiveData_last hup hc hdisc
    rw [hrec] at hloud hdone hraises hreturns
    refine .inr ⟨ms.filter isMessage ++ done, m, more, rest, ⟨rfl, ?_, ?_, ?_, hloud⟩, ?_, ?_, hpre, hraises, hreturns⟩
    · rw [hms]
      exact List.prefix_append _ _
    · rw [hall, hns, List.append_assoc]
    · exact each_append.2 ⟨hcalm, hdone⟩
    · rwa [hcb]
    · rw [receiveChunks, hcb, hlast, hrest, hrec]

/-- One more chunk, with the thread gone: it is not read, and no message comes of it. -/
theorem QuietRun.stopped {cs : List Bytes} (h : QuietRun cb cs) (hcs : ∀ x ∈ cs, x ≠ [])
    (hgo : (receiveData (some quiet) fresh (cs.map .chunk)).2 ≠ .receiving) (c : Bytes) : QuietRun cb (cs ++ [c]) := by
  obtain ⟨ms, r, hsplit⟩ := wire.split_exists cs.flatten
  obtain ⟨-, hdown, -⟩ := receiveChunks_split (s := fresh) rfl rfl hcs hsplit
  have hbad : wireFront r = .bad := hdown.1 (Bool.eq_false_iff.2 fun hup => hgo (receiving_quiet hcs hup))
  have hgo' : (receiveData (some cb) fresh (cs.map .chunk)).2 ≠ .receiving := by rwa [h.same]
  refine ⟨?_, ?_⟩
  · rw [List.flatten_append, messages_split (hsplit.append_bad hbad _), ← messages_split hsplit]
    exact h.calm
  · rw [List.map_append, receiveData_append_stopped hgo, receiveData_append_stopped hgo']
    exact h.same

theorem LoudRun.later {chunks early later done more rest : List Bytes} {chunk m : Bytes}
    (h : LoudRun cb chunks early chunk later done m more rest) (c : Bytes) :
    LoudRun cb (chunks ++ [c]) early chunk (later ++ [c]) done m more rest := by
  have hsame : receiveData (some cb) fresh ((chunks ++ [c]).map .chunk) =
      receiveData (some cb) fresh (chunks.map .chunk) := by
    rw [List.map_append]
    exact receiveData_append_stopped h.stopped _
  refine ⟨h.first.later c, ?_, ?_, h.rest_prefix, h.raises, h.returns⟩
  · rw [hsame]
    exact h.stopped
  · rw [receiveChunks, hsame]
    exact h.received

/-- A run of the thread: either every call is quiet, or there is a first one that is not. -/
theorem receive_cases (cb : Callback) {chunks : List Bytes} (hne : ∀ c ∈ chunks, c ≠ []) : QuietRun cb chunks ∨
    ∃ early chunk later done m more rest, LoudRun cb chunks early chunk later done m more rest := by
  induction chunks using List.reverseRecOn with
  | nil => exact .inl (quietRun_nil cb)
  | append_singleton cs c ih =>
    have hcs : ∀ x ∈ cs, x ≠ [] := fun x hx => hne x (by simp [hx])
    rcases ih hcs with hquiet | ⟨early, chunk, later, done, m, more, rest, hloud⟩
    · by_cases hgo : (receiveData (some quiet) fresh (cs.map .chunk)).2 = .receiving
      · rcases hquiet.receiving hcs (hne c (by simp)) hgo with h | h
        · exact .inl h
        · exact .inr ⟨cs, c, [], h⟩
      · exact .inl (hquiet.stopped hcs hgo c)
    · exact .inr ⟨early, chunk, later ++ [c], done, m, more, rest, hloud.later c⟩

theorem FirstLoud.upto_prefix {chunks early later done more : List Bytes} {chunk m : Bytes}
    (h : FirstLoud cb chunks early chunk later done m more) : done ++ [m] <+: messages chunks.flatten := by
  have hchunks : chunks.flatten = (early ++ [chunk]).flatten ++ later.flatten := by
    rw [h.chunks_eq, ← List.flatten_append, List.append_assoc, List.singleton_append]
  rw [hchunks]
  refine List.IsPrefix.trans ?_ (messages_grow _ _)
  rw [h.upto]
  exact ⟨more, by simp⟩

theorem FirstLoud.early_le {chunks early later done more early' later' more' : List Bytes}
    {chunk m chunk' m' : Bytes} (h : FirstLoud cb chunks early chunk later done m more)
    (h' : FirstLoud cb chunks early' chunk' later' done m' more') : early'.length ≤ early.length := by
  refine Nat.le_of_not_lt fun hlt => ?_
  have hpre : early ++ [chunk] <+: chunks := ⟨later, by rw [h.chunks_eq]; simp⟩
  have hpre' : early' <+: chunks := ⟨chunk' :: later', h'.chunks_eq.symm⟩
  obtain ⟨rest, rfl⟩ := List.prefix_of_prefix_length_le hpre hpre' (by simpa using Nat.succ_le_of_lt hlt)
  -- the chunk that completes `m` comes before the one that completes `m'`
  have hle := ((messages_grow (early ++ [chunk]).flatten rest.flatten).trans
    (List.flatten_append ▸ h'.before)).length_le
  rw [h.upto, List.length_append, List.length_cons] at hle
  omega

/-- Only one call is the first that is not quiet. -/
theorem FirstLoud.unique {chunks early later done more early' later' done' more' : List Bytes}
    {chunk m chunk' m' : Bytes} (h : FirstLoud cb chunks early chunk later done m more)
    (h' : FirstLoud cb chunks early' chunk' later' done' m' more') : done = done' ∧ m = m' ∧ more = more' := by
  obtain ⟨rfl, rfl⟩ := first_unique h.upto_prefix h'.upto_prefix h.quiet h'.quiet h.loud h'.loud
  have hearly : early.length = early'.length := Nat.le_antisymm (h'.early_le h) (h.early_le h')
  obtain ⟨rfl, hrest⟩ := List.append_inj (h.chunks_eq.symm.trans h'.chunks_eq) hearly
  obtain ⟨rfl, rfl⟩ := List.cons_eq_cons.1 hrest
  have hupto := h.upto.symm.trans h'.upto
  exact ⟨rfl, rfl, by simpa using hupto⟩

/-- What `recv` hands over before the stream ends: up to the first error or empty chunk. -/
def stream : List Recv → List Bytes
  | [] => []
  | .error :: _ => []
  | .chunk c :: rs => if c = [] then [] else c :: stream rs

theorem stream_ne_nil (rs : List Recv) : ∀ c ∈ stream rs, c ≠ [] := by
  induction rs with
  | nil => simp [stream]
  | cons r rs ih =>
    cases r with
    | error => simp [stream]
    | chunk c =>
      rw [stream]
      split
      · simp
      · rename_i hc
        simp only [List.mem_cons, forall_eq_or_imp]
        exact ⟨hc, ih⟩

/-- The end of the stream makes no call. -/
theorem receiveData_stream (cb : Option Callback) (s : TcpClient) (rs : List Recv) :
    (receiveData cb s rs).1.received = (receiveChunks cb s (stream rs)).received := by
  induction rs generalizing s with
  | nil => rfl
  | cons r rs ih =>
    cases r with
    | error =>
      rw [receiveData, stream, receiveTurn]
      split <;> rfl
    | chunk c =>
      rw [stream]
      by_cases hc : c = []
      · rw [if_pos hc, receiveData, receiveTurn, if_pos hc]
        split <;> rfl
      · rw [if_neg hc, receiveChunks, List.map_cons, receiveData, receiveData]
        split
        · cases h : receiveTurn cb s (.chunk c) with
          | mk s' th =>
            cases th with
            | receiving => exact ih s'
            | ended | died => rfl
        · rfl

/-- After a call that disconnects there is no other. -/
def Silent (cb : Callback) (received : List Bytes) : Prop :=
  ∀ done m more, received = done ++ m :: more → (cb (done ++ [m])).disconnects = true → more = []

theorem not_calm {ms : List Bytes} (hd : (cb ms).disconnects = true) : ¬ Calm cb ms := by
  intro h
  rw [h] at hd
  cases hd

theorem QuietRun.silent {chunks : List Bytes} (h : QuietRun cb chunks) (hne : ∀ c ∈ chunks, c ≠ []) :
    Silent cb (receiveChunks (some cb) fresh chunks).received := by
  obtain ⟨ms, r, hsplit⟩ := wire.split_exists chunks.flatten
  have hrec := (receiveChunks_split (s := fresh) rfl rfl hne hsplit).1
  have hcalm := h.calm
  rw [messages_split hsplit] at hcalm
  rw [receiveChunks, h.same, ← receiveChunks, hrec]
  intro done m more heq hdisc
  exact absurd ⟨more, by rw [List.append_assoc]; exact heq.symm⟩ (hcalm.not_prefix (not_calm hdisc))

theorem LoudRun.silent {chunks early later done more rest : List Bytes} {chunk m : Bytes}
    (h : LoudRun cb chunks early chunk later done m more rest) :
    Silent cb (receiveChunks (some cb) fresh chunks).received ↔ (cb (done ++ [m]) = ⟨true, none⟩ → more = []) := by
  rw [h.received]
  constructor
  · intro hsilent hcall
    obtain rfl := hsilent done m rest rfl (by rw [hcall])
    by_contra hmore
    exact h.returns (by rw [hcall]) hmore rfl
  · intro hcond
    have hlast : rest = [] := by
      cases hcall : cb (done ++ [m]) with
      | mk disc raises =>
        cases raises with
        | some e => exact h.raises (by simp [hcall])
        | none =>
          cases disc with
          | false => exact absurd hcall h.first.loud
          | true =>
            have hpre := h.rest_prefix
            rw [hcond hcall] at hpre
            exact List.prefix_nil.1 hpre
    rw [hlast]
    exact fun done' m' more' heq hdisc => h.first.quiet.last heq (not_calm hdisc)

/-- **Silence after `disconnect`, exactly.** However the stream comes in and whatever the callback does, no call
follows one that disconnects if and only if the first call that is not quiet, where it disconnects and returns, is for
the last message its chunk completes. -/
theorem silent_iff (cb : Callback) (rs : List Recv) : Silent cb (receiveData (some cb) fresh rs).1.received ↔
    ∀ early chunk later done m more, FirstLoud cb (stream rs) early chunk later done m more →
      cb (done ++ [m]) = ⟨true, none⟩ → more = [] := by
  rw [receiveData_stream]
  have hne := stream_ne_nil rs
  generalize stream rs = chunks at hne
  rcases receive_cases cb hne with hquiet | ⟨early, chunk, later, done, m, more, rest, hloud⟩
  · refine iff_of_true (hquiet.silent hne) fun early chunk later done m more h => ?_
    exact absurd h.upto_prefix (hquiet.calm.not_prefix h.loud)
  · rw [hloud.silent]
    constructor
    · intro hcond early' chunk' later' done' m' more' h'
      obtain ⟨rfl, rfl, rfl⟩ := hloud.first.unique h'
      exact hcond
    · exact fun hcond => hcond _ _ _ _ _ _ hloud.first

/-- Two messages in one chunk: the callback disconnects at the first and is called with the second. -/
theorem called_after_disconnect : ¬ ∀ (cb : Callback) (rs : List Recv),
    Silent cb (receiveData (some cb) fresh rs).1.received := by
  intro h
  let two := frame (ascii "a") ++ frame (ascii "b")
  have hrec : (receiveData (some fun _ => ⟨true, none⟩) fresh [.chunk two]).1.received = [ascii "a", ascii "b"] := by
    decide +kernel
  exact absurd (h (fun _ => ⟨true, none⟩) [.chunk two] [] (ascii "a") [ascii "b"] hrec rfl) (List.cons_ne_nil _ _)

end KnotLink.Python.TcpClient
