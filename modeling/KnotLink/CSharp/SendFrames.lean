import KnotLink.CSharp.Send
/-!
# Whole frames and at most one torn one

`Locked` is what the semaphore gives: at most one call is between `WaitAsync` and `Release`. A call that is
part-way with its frame is that one or was cut off (`holds_or_torn`), so while nothing is torn the calls
write to the channel one at a time (`orderly_step`), and once something is, only a call that writes its
magic could write at all (`silent_step`).
-/
namespace KnotLink.CSharp
open Lib

/-! ## The semaphore -/

/-- The permits left and the calls between `WaitAsync` and `Release` together are one. -/
def Locked (permits : Nat) (calls : List SendCall) : Prop :=
  (permits = 1 ∧ ∀ (k : Nat) (c : SendCall), calls[k]? = some c → c.holds = false) ∨
  (permits = 0 ∧ ∃ k : Nat, ∀ (j : Nat) (c : SendCall), calls[j]? = some c → c.holds = true → j = k)

namespace Locked
variable {permits j k : Nat} {calls : List SendCall} {c c' d : SendCall}

theorem unique (h : Locked permits calls) (hk : calls[k]? = some c) (hc : c.holds = true)
    (hj : calls[j]? = some d) (hd : d.holds = true) : j = k := by
  rcases h with ⟨-, hnone⟩ | ⟨-, i, hone⟩
  · rw [hnone k c hk] at hc
    cases hc
  · exact (hone j d hj hd).trans (hone k c hk hc).symm

theorem join (h : Locked permits calls) (hc : c.holds = false) : Locked permits (calls ++ [c]) := by
  rcases h with ⟨hp, hnone⟩ | ⟨hp, i, hone⟩
  · refine .inl ⟨hp, ?_⟩
    intro j d hj
    rcases getElem?_concat_iff.1 hj with ⟨-, rfl⟩ | hj
    · exact hc
    · exact hnone j d hj
  · refine .inr ⟨hp, i, ?_⟩
    intro j d hj hd
    rcases getElem?_concat_iff.1 hj with ⟨-, rfl⟩ | hj
    · rw [hc] at hd
      cases hd
    · exact hone j d hj hd

theorem same (h : Locked permits calls) (hk : calls[k]? = some c) (hc : c'.holds = c.holds) :
    Locked permits (calls.set k c') := by
  rcases h with ⟨hp, hnone⟩ | ⟨hp, i, hone⟩
  · refine .inl ⟨hp, ?_⟩
    intro j d hj
    rcases (getElem?_set_iff hk).1 hj with ⟨-, rfl⟩ | ⟨-, hj⟩
    · rw [hc]
      exact hnone k c hk
    · exact hnone j d hj
  · refine .inr ⟨hp, i, ?_⟩
    intro j d hj hd
    rcases (getElem?_set_iff hk).1 hj with ⟨rfl, rfl⟩ | ⟨-, hj⟩
    · exact hone j c hk (hc ▸ hd)
    · exact hone j d hj hd

theorem acquire (h : Locked (permits + 1) calls) (hk : calls[k]? = some c) : Locked permits (calls.set k c') := by
  rcases h with ⟨hp, hnone⟩ | ⟨hp, -⟩
  · refine .inr ⟨by omega, k, ?_⟩
    intro j d hj hd
    rcases (getElem?_set_iff hk).1 hj with ⟨rfl, -⟩ | ⟨-, hj⟩
    · rfl
    · rw [hnone j d hj] at hd
      cases hd
  · omega

theorem release (h : Locked permits calls) (hk : calls[k]? = some c) (hc : c.holds = true)
    (hc' : c'.holds = false) : Locked (permits + 1) (calls.set k c') := by
  have hp : permits = 0 := by
    rcases h with ⟨-, hnone⟩ | ⟨hp, -⟩
    · rw [hnone k c hk] at hc
      cases hc
    · exact hp
  refine .inl ⟨by omega, ?_⟩
  intro j d hj
  rcases (getElem?_set_iff hk).1 hj with ⟨-, rfl⟩ | ⟨hjk, hj⟩
  · exact hc'
  · rw [← Bool.not_eq_true]
    exact fun hd => hjk (h.unique hk hc hj hd)

end Locked

/-! ## The stream -/

namespace Senders
variable {s u : Senders} {a : SendAct} {k : Nat} {c c' : SendCall} {stage : Stage}

/-- The calls as writers of the channel. -/
def writers (s : Senders) : List (Bytes × Nat) := s.calls.map SendCall.writer

structure Orderly (s : Senders) : Prop where
  lock : Locked s.sendLock s.calls
  channel : ∃ done part, wire.Channel [] s.stream s.writers done part
  /-- At most one call is part-way. -/
  alone : ∀ (j k : Nat) (w v : Bytes × Nat), s.writers[j]? = some w → s.writers[k]? = some v → wire.Partway w →
    wire.Partway v → j = k

theorem writers_get (hk : s.calls[k]? = some c) : s.writers[k]? = some c.writer := by
  rw [writers, List.getElem?_map, hk]
  rfl

theorem get_writers {w : Bytes × Nat} (hk : s.writers[k]? = some w) :
    ∃ c, s.calls[k]? = some c ∧ c.writer = w := by
  rwa [writers, List.getElem?_map, Option.map_eq_some_iff] at hk

/-- A call that has not written since is the same writer. -/
theorem map_writer_set (hk : s.calls[k]? = some c) (hc : c'.writer = c.writer) :
    (s.calls.set k c').map SendCall.writer = s.writers :=
  map_set_same hk hc

/-- A step that writes nothing. -/
theorem Orderly.quiet (hI : Orderly s) (hk : s.calls[k]? = some c) (c' : SendCall) (hc : c'.writer = c.writer)
    {permits : Nat} (hlock : Locked permits (s.calls.set k c')) :
    Orderly { s with sendLock := permits, calls := s.calls.set k c' } := by
  have hw : writers { s with sendLock := permits, calls := s.calls.set k c' } = s.writers := map_writer_set hk hc
  refine ⟨hlock, ?_, ?_⟩
  · rw [hw]
    exact hI.channel
  · rw [hw]
    exact hI.alone

/-- A new call. -/
theorem Orderly.join (hI : Orderly s) (payload : Bytes) (beat : Option Nat) :
    Orderly { s with calls := s.calls ++ [.enter payload], beat } := by
  obtain ⟨hwriter, hholds⟩ := SendCall.enter_new payload
  have hw : writers { s with calls := s.calls ++ [.enter payload], beat } = s.writers ++ [(payload, 0)] := by
    rw [writers, List.map_append, List.map_singleton, hwriter]
    rfl
  obtain ⟨done, part, h⟩ := hI.channel
  have hold : ∀ {j : Nat} {w : Bytes × Nat}, (s.writers ++ [(payload, 0)])[j]? = some w → wire.Partway w →
      s.writers[j]? = some w := by
    intro j w hj hp
    rcases getElem?_concat_iff.1 hj with ⟨-, rfl⟩ | hj
    · exact absurd rfl hp.1
    · exact hj
  refine ⟨hI.lock.join hholds, ⟨done, part, ?_⟩, ?_⟩
  · rw [hw]
    exact h.join payload
  · intro i j w v hi hj hp hq
    rw [hw] at hi hj
    exact hI.alone i j w v (hold hi hp) (hold hj hq) hp hq

/-- One of the three writes, the other calls not being part-way. -/
theorem Orderly.write (hI : Orderly s) (hk : s.calls[k]? = some c) (hpc : c.pc = .awaits stage)
    (hstage : stage = .magic ∨ stage = .length ∨ stage = .payload)
    (hothers : ∀ (j : Nat) (w : Bytes × Nat), s.writers[j]? = some w → wire.Partway w →
      stage.written c.payload < stage.next.written c.payload → j = k) :
    Orderly { s with
      stream := s.stream ++ stage.bytes c.payload
      calls := s.calls.set k { c with pc := .awaits stage.next } } := by
  have hget := writers_get hk
  rw [show c.writer = (c.payload, stage.written c.payload) by simp [SendCall.writer, SendCall.written, hpc]] at hget
  have hw : writers { s with
      stream := s.stream ++ stage.bytes c.payload
      calls := s.calls.set k { c with pc := .awaits stage.next } } =
      s.writers.set k (c.payload, stage.next.written c.payload) := by
    rw [writers, List.map_set]
    rfl
  have hholds : ({ c with pc := .awaits stage.next } : SendCall).holds = c.holds := by
    rcases c with ⟨payload, cancelled, pc⟩
    obtain rfl := hpc
    rcases hstage with rfl | rfl | rfl <;> rfl
  obtain ⟨done, part, h⟩ := hI.channel
  rcases Nat.lt_or_eq_of_le (written_next c.payload stage) with hlt | heq
  · refine ⟨hI.lock.same hk hholds, ?_, ?_⟩
    · rw [hw, ← slice_written hstage]
      exact h.write hget hlt (next_written_le c.payload stage) fun j w hj hp => hothers j w hj hp hlt
    · intro i j w v hi hj hp hq
      rw [hw] at hi hj
      have hmine : ∀ {j : Nat} {w : Bytes × Nat},
          (s.writers.set k (c.payload, stage.next.written c.payload))[j]? = some w → wire.Partway w → j = k := by
        intro j w hj hp
        rcases (getElem?_set_iff hget).1 hj with ⟨hjk, -⟩ | ⟨-, hj⟩
        · exact hjk
        · exact hothers j w hj hp hlt
      exact (hmine hi hp).trans (hmine hj hq).symm
  · -- the third write of an empty payload
    have hnone : stage.bytes c.payload = [] := by
      rw [← slice_written hstage, ← heq, slice]
      apply List.drop_of_length_le
      rw [List.length_take]
      exact Nat.min_le_left _ _
    have hsame := hI.quiet hk { c with pc := .awaits stage.next }
      (by simp [SendCall.writer, SendCall.written, hpc, heq]) (hI.lock.same hk hholds)
    rw [hnone, List.append_nil]
    exact hsame

/-- While nothing is torn, only the call that holds the lock is part-way. -/
theorem Orderly.holder (hI : Orderly s) (hk : s.calls[k]? = some c) (hc : c.holds = true)
    (huntorn : ∀ d ∈ s.calls, d.torn = false) {j : Nat} {w : Bytes × Nat} (hj : s.writers[j]? = some w)
    (hp : wire.Partway w) : j = k := by
  obtain ⟨d, hd', rfl⟩ := get_writers hj
  rcases SendCall.holds_or_torn hp with hd | hd
  · exact hI.lock.unique hk hc hd' hd
  · rw [huntorn d (List.mem_of_getElem? hd')] at hd
    cases hd

/-- A call between two awaits does not change as a writer when it stops there. -/
theorem writer_cut (hpc : c.pc = .awaits stage) : ({ c with pc := .cancelled stage } : SendCall).writer = c.writer := by
  simp [SendCall.writer, SendCall.written, hpc]

theorem orderly_step (hI : Orderly s) (hok : Untorn s a) (h : step s a = some u) : Orderly u := by
  cases step_cases h with
  | @joined payload => exact hI.join payload s.beat
  | beat => exact hI.join heartbeat _
  | @cancelled k c hk => exact hI.quiet hk { c with cancelled := true } rfl (hI.lock.same hk rfl)
  | @refused k c hk hpc =>
    have hholds : c.holds = false := by simp [SendCall.holds, hpc]
    exact hI.quiet hk { c with pc := .cancelled .lock } (writer_cut hpc) (hI.lock.same hk hholds.symm)
  | @acquired k n c hk hpc hn =>
    have hlock := hI.lock
    rw [hn] at hlock
    have hw : ({ c with pc := .awaits .magic } : SendCall).writer = c.writer := by
      simp [SendCall.writer, SendCall.written, hpc, Stage.written]
    exact hI.quiet hk { c with pc := .awaits .magic } hw (hlock.acquire hk)
  | @cut k c stage hk hpc hstage =>
    exact hI.quiet hk _ (writer_cut hpc) (hI.lock.release hk (SendCall.holds_of_awaits hpc hstage) rfl)
  | @wrote k c stage hk hpc hstage hc =>
    refine hI.write hk hpc hstage ?_
    intro j w hj hp hlt
    by_cases hm : stage = .magic
    · simp only [Untorn, hk] at hok
      exact hI.holder hk (SendCall.holds_of_awaits hpc (by simp [hm])) (hok (by rw [hpc, hm]) hc) hj hp
    · -- the call itself is part-way
      refine hI.alone j k w c.writer hj (writers_get hk) hp ⟨?_, ?_⟩
      · rcases hstage with rfl | rfl | rfl
        · exact absurd rfl hm
        · simp [SendCall.writer, SendCall.written, hpc, Stage.written, MAGIC_LEN]
        · simp [SendCall.writer, SendCall.written, hpc, Stage.written, HEADER_LEN]
      · have := next_written_le c.payload stage
        simp only [SendCall.writer, SendCall.written, hpc]
        omega
  | @sent k c hk hpc =>
    have hw : ({ c with pc := .sent } : SendCall).writer = c.writer := by
      simp [SendCall.writer, SendCall.written, hpc, Stage.written]
    exact hI.quiet hk { c with pc := .sent } hw
      (hI.lock.release hk (SendCall.holds_of_awaits hpc (by simp)) rfl)

/-! ## Behind a torn frame -/

/-- A frame on the stream is torn. -/
def Torn (s : Senders) : Prop := ∃ c ∈ s.calls, c.torn = true

/-- A torn frame stays torn when a call that is not torn moves. -/
theorem Torn.set (ht : Torn s) (hk : s.calls[k]? = some c) (hc : c.torn = true → c'.torn = true) :
    ∃ d ∈ s.calls.set k c', d.torn = true :=
  exists_mem_set hk hc ht

/-- Behind a torn frame nobody is part-way: its call has ended, and there is no other one. -/
theorem Orderly.not_partway (hI : Orderly s) (ht : Torn s) (hk : s.calls[k]? = some c) (hpc : c.pc = .awaits stage) :
    ¬ wire.Partway c.writer := by
  intro hc
  obtain ⟨d, hd, htorn⟩ := ht
  obtain ⟨j, hj⟩ := List.mem_iff_getElem?.1 hd
  obtain ⟨⟨stage', hcut⟩, hway⟩ := SendCall.torn_iff.1 htorn
  obtain rfl := hI.alone j k _ _ (writers_get hj) (writers_get hk) hway hc
  obtain rfl := Option.some.inj (hk.symm.trans hj)
  cases hpc.symm.trans hcut

/-- A call that is not part-way and does not write its magic has nothing to write. -/
theorem bytes_nil (hpc : c.pc = .awaits stage) (hstage : stage = .magic ∨ stage = .length ∨ stage = .payload)
    (hm : stage ≠ .magic) (hwhole : ¬ wire.Partway c.writer) : stage.bytes c.payload = [] := by
  rcases hstage with rfl | rfl | rfl
  · exact absurd rfl hm
  · refine absurd ⟨?_, ?_⟩ hwhole
    · simp [SendCall.writer, SendCall.written, hpc, Stage.written, MAGIC_LEN]
    · simp only [SendCall.writer, SendCall.written, hpc, Stage.written, wire_encode, length_frame, HEADER_LEN, MAGIC_LEN]
      omega
  · by_contra hne
    have hpos : 0 < c.payload.length := List.length_pos_iff.2 hne
    refine hwhole ⟨?_, ?_⟩
    · simp [SendCall.writer, SendCall.written, hpc, Stage.written, HEADER_LEN]
    · simp only [SendCall.writer, SendCall.written, hpc, Stage.written, wire_encode, length_frame]
      omega

theorem silent_step (hI : Orderly s) (ht : Torn s) (hok : Untorn s a) (h : step s a = some u) :
    Torn u ∧ u.stream = s.stream := by
  have hmoves {k : Nat} {c c' : SendCall} {stage : Stage} (hk : s.calls[k]? = some c) (hpc : c.pc = .awaits stage) :
      ∃ d ∈ s.calls.set k c', d.torn = true :=
    ht.set hk fun hc => by simp [SendCall.torn, hpc] at hc
  cases step_cases h with
  | joined | beat =>
    obtain ⟨d, hd, htorn⟩ := ht
    exact ⟨⟨d, List.mem_append_left _ hd, htorn⟩, rfl⟩
  | cancelled hk => exact ⟨ht.set hk id, rfl⟩
  | refused hk hpc => exact ⟨hmoves hk hpc, rfl⟩
  | acquired hk hpc => exact ⟨hmoves hk hpc, rfl⟩
  | cut hk hpc => exact ⟨hmoves hk hpc, rfl⟩
  | @wrote k c stage hk hpc hstage hc =>
    refine ⟨hmoves hk hpc, ?_⟩
    have hm : stage ≠ .magic := by
      rintro rfl
      simp only [Untorn, hk] at hok
      obtain ⟨d, hd, htorn⟩ := ht
      rw [hok hpc hc d hd] at htorn
      cases htorn
    rw [bytes_nil hpc hstage hm (hI.not_partway ht hk hpc), List.append_nil]
  | sent hk hpc => exact ⟨hmoves hk hpc, rfl⟩

/-- The payload of a call whose frame is all on the stream. -/
def payload? (c : SendCall) : Option Bytes := wire.finished? c.writer

/-- **Whole frames, at most one torn one, and nothing behind it**, in every run in which no call writes its magic
while a frame on the stream is torn: the stream holds the whole frames, in some order, and a proper part of
at most one more; once that frame is torn, nothing is written any more. -/
theorem whole_or_silent {as bs : List SendAct} {s t : Senders} (h : system.Runs Untorn start as s)
    (h' : system.Runs Untorn s bs t) :
    (∃ done part, s.stream = wire.encodeAll done ++ part ∧ done.Perm (s.calls.filterMap payload?) ∧
      (part = [] ∨ ∃ c ∈ s.calls, part = (frame c.payload).take c.written ∧ part.length < (frame c.payload).length)) ∧
    (Torn s → t.stream = s.stream) := by
  have hstart : Orderly start := by
    refine ⟨.inl ⟨rfl, by simp [start]⟩, ⟨[], [], .nil⟩, by simp [start, writers]⟩
  have hs : Orderly s := h.invariant (fun hI hok hstep => orderly_step hI hok hstep) hstart
  constructor
  · obtain ⟨done, part, hch⟩ := hs.channel
    obtain ⟨hperm, hpart⟩ := hch.of_calls
    refine ⟨done, part, by simpa using hch.eq, hperm, hpart.imp id ?_⟩
    rintro ⟨k, c, hc, -, heq, hlt⟩
    exact ⟨c, List.mem_of_getElem? hc, heq, hlt⟩
  · intro ht
    have hinv : Orderly t ∧ Torn t ∧ t.stream = s.stream := by
      apply h'.invariant (I := fun t => Orderly t ∧ Torn t ∧ t.stream = s.stream)
      · rintro v a u ⟨hI, hT, heq⟩ hok hstep
        obtain ⟨hT', heq'⟩ := silent_step hI hT hok hstep
        exact ⟨orderly_step hI hok hstep, hT', heq'.trans heq⟩
      · exact ⟨hs, ht, rfl⟩
    exact hinv.2.2

/-- A whole frame, then a call cut off behind its magic. -/
def cutSecond : List SendAct :=
  [.sendAsync (ascii "ab"), .resume 0, .resume 0, .resume 0, .resume 0, .resume 0,
    .sendAsync (ascii "cd"), .resume 1, .resume 1, .cancel 1, .resume 1]

/-- A third call gets the lock, but its token is cancelled before it writes. -/
def cutThird : List SendAct := [.sendAsync (ascii "ef"), .resume 2, .cancel 2, .resume 2]

theorem whole_or_silent_cut : ∃ s t : Senders, system.Runs Untorn s cutThird t ∧ s.stream = frame (ascii "ab") ++ MAGIC ∧
    t.stream = s.stream := by
  obtain ⟨s, hs, hstream, htorn⟩ := system.exists_run Untorn start cutSecond
    (fun s => s.stream = frame (ascii "ab") ++ MAGIC ∧ (∃ c ∈ s.calls, c.torn = true) ∧
      ∃ t ∈ system.exec Untorn s cutThird, t.calls.length = 3) (by decide +kernel)
  obtain ⟨t, ht, -⟩ := system.exists_run Untorn s cutThird (fun t => t.calls.length = 3) htorn.2
  exact ⟨s, t, ht, hstream, (whole_or_silent hs ht).2 htorn.1⟩

/-- A call is cut off behind its magic, and the next one writes its whole frame. -/
def sendBehind : List SendAct :=
  [.sendAsync (ascii "a"), .resume 0, .resume 0, .cancel 0, .resume 0,
    .sendAsync (ascii "b"), .resume 1, .resume 1, .resume 1, .resume 1, .resume 1]

/-- The stream then is not whole frames and the beginning of one more. -/
theorem frame_behind_torn : ∃ (as : List SendAct) (t : Senders), system.Runs (fun _ _ => True) start as t ∧
    t.stream = MAGIC ++ frame (ascii "b") ∧
    ¬ ∃ (done : List Bytes) (p : Bytes) (n : Nat), t.stream = wire.encodeAll done ++ (frame p).take n ∧
      ∀ m ∈ p :: done, m.length ≤ MAX_MSG_SIZE := by
  obtain ⟨t, hrun, hstream⟩ := system.exists_run (fun _ _ => True) start sendBehind
    (fun t => t.stream = MAGIC ++ frame (ascii "b")) (by decide +kernel)
  refine ⟨sendBehind, t, hrun, hstream, ?_⟩
  rintro ⟨done, p, n, heq, hfit⟩
  -- a frame at the front would have the next magic for its length
  have hfront : ∀ (m r r' : Bytes), m.length ≤ MAX_MSG_SIZE → t.stream ++ r = frame m ++ r' → False := by
    intro m r r' hm hmr
    have hlen := lengthField_frame (Nat.lt_of_le_of_lt hm (by decide)) r'
    rw [← hmr, hstream, lengthField_append (by decide)] at hlen
    have hbig : MAX_MSG_SIZE < lengthField (MAGIC ++ frame (ascii "b")) := by decide
    omega
  cases done with
  | nil =>
    refine hfront p ((frame p).drop n) [] (hfit p (by simp)) ?_
    rw [heq, Codec.encodeAll_nil, List.nil_append, List.take_append_drop, List.append_nil]
  | cons m ms =>
    refine hfront m [] (wire.encodeAll ms ++ (frame p).take n) (hfit m (by simp)) ?_
    rw [heq, Codec.encodeAll_cons, List.append_nil, List.append_assoc]
    rfl

end Senders
end KnotLink.CSharp
