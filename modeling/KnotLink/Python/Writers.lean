import KnotLink.Lib.Channel
import KnotLink.Python.Stream
/-!
# The writers of a Python `TcpClient`

Application threads call `send_data` and the timer thread calls `send_heart_beat` on one client
(tcpclient.py:59-86). `sendall` is a loop of `send` calls that each take some of what remains, and nothing
keeps another writer out between two of them: `self.lock` guards the receive buffer only.

The frames stay whole in every run in which no writer's `send` comes while another one's frame is part-way
on the wire (`frames_whole`).
-/
namespace KnotLink.Python
open Lib

/-- Where a call of `_write_with_length_prefix` stands. -/
inductive WriterPc where
  /-- In `sendall`: the socket has taken `n` bytes of the frame. -/
  | sending (data : Bytes) (n : Nat)
  | returned (data : Bytes)
  | raised (e : TcpClient.ValueError)
  /-- Returned at once, the client not being connected. -/
  | skipped
  deriving DecidableEq, Repr

structure Writers where
  client : TcpClient
  /-- The calls by number. -/
  calls : List WriterPc
  /-- The timer thread's last call. -/
  timer : Option Nat
  deriving DecidableEq, Repr

inductive WriterAct where
  | sendData (data : Bytes)
  | sendHeartBeat
  /-- One `send` of the call's `sendall`, taking `n` bytes. -/
  | send (k n : Nat)
  deriving DecidableEq, Repr

namespace WriterPc

/-- Part of the frame is on the wire. -/
def partway : WriterPc → Bool
  | sending _ n => n ≠ 0
  | _ => false

/-- The call as a writer of the channel. -/
def writer : WriterPc → Bytes × Nat
  | sending data n => (data, n)
  | returned data => (data, (frame data).length)
  | raised _ | skipped => ([], 0)

/-- The payload of a call that has written its frame. -/
def payload? (p : WriterPc) : Option Bytes := wire.finished? p.writer

/-- The call is over. -/
def isOver : WriterPc → Bool
  | sending _ _ => false
  | _ => true

end WriterPc

namespace Writers

/-- A call of `_write_with_length_prefix` up to its first `send`. -/
def enter (c : TcpClient) (data : Bytes) : WriterPc :=
  if !c.connected then .skipped
  else match TcpClient.packet data with
    | .error e => .raised e
    | .ok _ => .sending data 0

def step (s : Writers) : WriterAct → Option Writers
  | .sendData data => some { s with calls := s.calls ++ [enter s.client data] }
  | .sendHeartBeat =>
    -- the timer is armed again only after its write
    if (s.timer.bind fun k => s.calls[k]?).all WriterPc.isOver ∧ s.client.connected then
      some { s with calls := s.calls ++ [enter s.client heartbeat], timer := some s.calls.length }
    else none
  | .send k n =>
    match s.calls[k]? with
    | some (.sending data m) =>
      if 1 ≤ n ∧ m + n ≤ (frame data).length then
        some { s with
          client := { s.client with sent := s.client.sent ++ slice (frame data) m (m + n) }
          calls := s.calls.set k (if m + n = (frame data).length then .returned data else .sending data (m + n)) }
      else none
    | _ => none

def system : System Writers WriterAct := ⟨step⟩

def start (c : TcpClient) : Writers := ⟨c, [], none⟩

/-- The payloads of the calls that have written their frames. -/
def payloads (s : Writers) : List Bytes := s.calls.filterMap WriterPc.payload?

/-- A call's `send` comes only while no other call is part-way. -/
def Alone (s : Writers) : WriterAct → Prop
  | .send k _ => ∀ j : Fin s.calls.length, j.val ≠ k → s.calls[j].partway = false
  | _ => True

instance (s : Writers) : (a : WriterAct) → Decidable (Alone s a)
  | .send k _ => inferInstanceAs (Decidable (∀ j : Fin s.calls.length, j.val ≠ k → _))
  | .sendData _ | .sendHeartBeat => inferInstanceAs (Decidable True)

/-! ## What a step can do -/

/-- The ways a step can go. -/
inductive Step (s : Writers) : WriterAct → Writers → Prop where
  | entered {data : Bytes} : Step s (.sendData data) { s with calls := s.calls ++ [enter s.client data] }
  | beat (htimer : (s.timer.bind fun k => s.calls[k]?).all WriterPc.isOver = true)
      (hc : s.client.connected = true) : Step s .sendHeartBeat
      { s with calls := s.calls ++ [enter s.client heartbeat], timer := some s.calls.length }
  | sent {k n m : Nat} {data : Bytes} (hk : s.calls[k]? = some (.sending data m)) (hn : 1 ≤ n)
      (hlen : m + n ≤ (frame data).length) : Step s (.send k n)
      { s with
        client := { s.client with sent := s.client.sent ++ slice (frame data) m (m + n) }
        calls := s.calls.set k (if m + n = (frame data).length then .returned data else .sending data (m + n)) }

theorem step_cases {s u : Writers} {a : WriterAct} (h : step s a = some u) : Step s a u := by
  cases a with
  | sendData data =>
    cases h
    exact .entered
  | sendHeartBeat =>
    simp only [step] at h
    split at h
    · rename_i htimer
      cases h
      exact .beat htimer.1 htimer.2
    · cases h
  | send k n =>
    simp only [step] at h
    split at h
    · rename_i hk
      split at h
      · rename_i hn
        cases h
        exact .sent hk hn.1 hn.2
      · cases h
    · cases h

/-! ## The frames -/

variable {s u : Writers} {base : Bytes}

/-- The calls as writers of the channel, and their frames whole on it. -/
def Whole (base : Bytes) (s : Writers) : Prop :=
  ∃ done part, wire.Channel base s.client.sent (s.calls.map WriterPc.writer) done part

theorem writer_enter (c : TcpClient) (data : Bytes) : ∃ m, (enter c data).writer = (m, 0) := by
  unfold enter
  split
  · exact ⟨_, rfl⟩
  · split <;> exact ⟨_, rfl⟩

/-- A new call has written nothing yet. -/
theorem Whole.enter (hI : Whole base s) (data : Bytes) (timer : Option Nat) :
    Whole base { s with calls := s.calls ++ [Writers.enter s.client data], timer } := by
  obtain ⟨done, part, h⟩ := hI
  obtain ⟨m, hm⟩ := writer_enter s.client data
  refine ⟨done, part, ?_⟩
  rw [List.map_append, List.map_singleton, hm]
  exact h.join m

theorem sending_of_partway {p : WriterPc} (h : wire.Partway p.writer) : ∃ data n, p = .sending data n ∧ n ≠ 0 := by
  cases p with
  | sending data n => exact ⟨data, n, rfl, h.1⟩
  | returned data => exact absurd h.2 (Nat.lt_irrefl _)
  | raised e => exact absurd rfl h.1
  | skipped => exact absurd rfl h.1

/-- Some bytes of one call, the others being silent. -/
theorem Whole.send (hI : Whole base s) {k m n : Nat} {data : Bytes} (hk : s.calls[k]? = some (.sending data m))
    (halone : ∀ j : Fin s.calls.length, j.val ≠ k → s.calls[j].partway = false) (hn : 1 ≤ n)
    (hlen : m + n ≤ (frame data).length) :
    Whole base { s with
      client := { s.client with sent := s.client.sent ++ slice (frame data) m (m + n) }
      calls := s.calls.set k (if m + n = (frame data).length then .returned data else .sending data (m + n)) } := by
  obtain ⟨done, part, h⟩ := hI
  have hothers : ∀ (j : Nat) (w : Bytes × Nat), (s.calls.map WriterPc.writer)[j]? = some w → wire.Partway w →
      j = k := by
    intro j w hj hw
    rw [List.getElem?_map, Option.map_eq_some_iff] at hj
    obtain ⟨p, hj, rfl⟩ := hj
    obtain ⟨hlt, rfl⟩ := List.getElem?_eq_some_iff.1 hj
    by_contra hne
    obtain ⟨d, i, hp, hi⟩ := sending_of_partway hw
    have hsilent : (s.calls[j]).partway = false := halone ⟨j, hlt⟩ hne
    rw [hp] at hsilent
    exact of_decide_eq_false hsilent hi
  have hnext : (if m + n = (frame data).length then WriterPc.returned data else .sending data (m + n)).writer =
      (data, m + n) := by
    split
    · rename_i hend
      rw [hend]
      rfl
    · rfl
  obtain ⟨done', part', h'⟩ := h.write (by rw [List.getElem?_map, hk]; rfl) (Nat.lt_add_of_pos_right hn) hlen hothers
  refine ⟨done', part', ?_⟩
  rw [List.map_set, hnext]
  exact h'

theorem whole_step {a : WriterAct} (hI : Whole base s) (hok : Alone s a) (h : step s a = some u) : Whole base u := by
  cases step_cases h with
  | @entered data => exact hI.enter data s.timer
  | beat => exact hI.enter heartbeat _
  | sent hk hn hlen => exact hI.send hk hok hn hlen

/-- What is being sent passed the length check. -/
def Fits (s : Writers) : Prop :=
  ∀ p ∈ s.calls, ∀ data n, p = .sending data n ∨ p = .returned data → data.length ≤ MAX_MSG_SIZE

theorem Fits.payload (hI : Fits s) {p : WriterPc} (hp : p ∈ s.calls) {data : Bytes} (h : p.payload? = some data) :
    data.length ≤ MAX_MSG_SIZE := by
  cases p with
  | sending d n =>
    obtain rfl := (Option.ite_some_none_eq_some.1 h).2
    exact hI _ hp d n (.inl rfl)
  | returned d =>
    obtain rfl := (Option.ite_some_none_eq_some.1 h).2
    exact hI _ hp d 0 (.inr rfl)
  | raised e => cases (Codec.finished?_zero (F := wire) []).symm.trans h
  | skipped => cases (Codec.finished?_zero (F := wire) []).symm.trans h

theorem enter_fits {c : TcpClient} {data d : Bytes} {n : Nat}
    (h : enter c data = .sending d n ∨ enter c data = .returned d) : d.length ≤ MAX_MSG_SIZE := by
  unfold enter TcpClient.packet at h
  split at h
  · rcases h with h | h <;> cases h
  · by_cases hlen : data.length > MAX_MSG_SIZE
    · rw [if_pos hlen] at h
      rcases h with h | h <;> cases h
    · rw [if_neg hlen] at h
      rcases h with h | h <;> cases h
      exact Nat.le_of_not_lt hlen

theorem fits_step {a : WriterAct} (hI : Fits s) (h : step s a = some u) : Fits u := by
  have hnew (data : Bytes) : ∀ p ∈ s.calls ++ [enter s.client data], ∀ d n,
      p = .sending d n ∨ p = .returned d → d.length ≤ MAX_MSG_SIZE := by
    intro p hp d n hd
    rcases List.mem_append.1 hp with hp | hp
    · exact hI p hp d n hd
    · rw [List.mem_singleton.1 hp] at hd
      exact enter_fits hd
  cases step_cases h with
  | @entered data => exact hnew data
  | beat => exact hnew heartbeat
  | @sent k n m data hk =>
    intro p hp d i hd
    have hdata := hI _ (List.mem_of_getElem? hk) data m (.inl rfl)
    rcases List.mem_or_eq_of_mem_set hp with hp | rfl
    · exact hI p hp d i hd
    · split at hd
      · rcases hd with hd | hd <;> cases hd
        exact hdata
      · rcases hd with hd | hd <;> cases hd
        exact hdata

/-- **Frames stay whole on the wire**, in every run in which a call's `send` comes only while no other call is
part-way: the wire holds the frames of the calls that have returned, in some order, and a part of at most
one more. When every call is over it holds nothing else, and if no payload is empty a receiver reads all
of them, however the stream is cut. -/
theorem frames_whole {c : TcpClient} {as : List WriterAct} {t : Writers}
    (h : system.Runs Alone (start c) as t) : ∃ done part,
    t.client.sent = c.sent ++ wire.encodeAll done ++ part ∧ done.Perm t.payloads ∧
    (part = [] ∨ ∃ (k n : Nat) (data : Bytes), t.calls[k]? = some (.sending data n) ∧ part = (frame data).take n) ∧
    ((∀ p ∈ t.calls, p.isOver = true) → part = [] ∧ ((∀ p ∈ done, p ≠ []) →
      ∀ (r : TcpClient) (chunks : List Bytes), r.connected = true → r.buffer = [] → (∀ x ∈ chunks, x ≠ []) →
        c.sent ++ chunks.flatten = t.client.sent →
        (r.receiveChunks (some quiet) chunks).received = r.received ++ done.filter isMessage ∧
        (r.receiveChunks (some quiet) chunks).buffer = [] ∧
        (r.receiveChunks (some quiet) chunks).connected = true)) := by
  have hwhole : Whole c.sent t := by
    apply h.invariant (I := Whole c.sent)
    · intro s a u hI hok hstep
      exact whole_step hI hok hstep
    · exact ⟨[], [], .nil⟩
  have hfits : Fits t := by
    apply h.invariant (I := Fits)
    · intro s a u hI _ hstep
      exact fits_step hI hstep
    · intro p hp
      simp [start] at hp
  obtain ⟨done, part, hw⟩ := hwhole
  obtain ⟨hperm, hpart⟩ := hw.of_calls
  refine ⟨done, part, hw.eq, hperm, hpart.imp id ?_, ?_⟩
  · rintro ⟨k, p, hk, hway, heq, -⟩
    obtain ⟨data, n, rfl, -⟩ := sending_of_partway hway
    exact ⟨k, n, data, hk, heq⟩
  · intro hover
    have hnone : part = [] := by
      refine hw.part_nil ?_
      intro k w hk hway
      rw [List.getElem?_map, Option.map_eq_some_iff] at hk
      obtain ⟨p, hk, rfl⟩ := hk
      obtain ⟨data, n, rfl, -⟩ := sending_of_partway hway
      cases hover _ (List.mem_of_getElem? hk)
    refine ⟨hnone, ?_⟩
    intro hne r chunks hr hb hcs hcut
    have hadm : ∀ p ∈ done, Admissible p := by
      intro p hp
      obtain ⟨w, hw', hfin⟩ := List.mem_filterMap.1 (hw.finished.mem_iff.1 hp)
      obtain ⟨q, hq, rfl⟩ := List.mem_map.1 hw'
      exact ⟨List.length_pos_iff.2 (hne p hp), hfits.payload hq hfin⟩
    have hstream : chunks.flatten = wire.encodeAll done := by
      rw [hw.eq, hnone, List.append_nil] at hcut
      exact List.append_cancel_left hcut
    exact TcpClient.receiveChunks_frames hr hb hadm hcs hstream

/-- A heartbeat waits until a message has been written in three pieces. -/
def beatAfter : List WriterAct :=
  [.sendData (ascii "ab"), .sendHeartBeat, .send 0 3, .send 0 6, .send 0 1, .send 1 17]

theorem frames_whole_beat : ∃ t : Writers, system.Runs Alone (start .fresh) beatAfter t ∧
    t.calls = [.returned (ascii "ab"), .returned heartbeat] ∧
    ∃ done part, t.client.sent = [] ++ wire.encodeAll done ++ part ∧ done.Perm t.payloads := by
  obtain ⟨t, hrun, ht⟩ := system.exists_run Alone (start .fresh) beatAfter
    (fun t => t.calls = [.returned (ascii "ab"), .returned heartbeat]) (by decide +kernel)
  obtain ⟨done, part, hsent, hperm, -⟩ := frames_whole hrun
  exact ⟨t, hrun, ht, done, part, hsent, hperm⟩

/-- The second frame is written into the first one, behind its magic. -/
def intoMagic : List WriterAct :=
  [.sendData (ascii "a"), .sendData (ascii "b"), .send 0 4, .send 1 9, .send 0 5]

/-- The wire then is no sequence of the two frames. -/
theorem frames_torn : ∃ (as : List WriterAct) (t : Writers), system.Runs (fun _ _ => True) (start .fresh) as t ∧
    t.calls = [.returned (ascii "a"), .returned (ascii "b")] ∧
    ¬ ∃ done, done.Perm t.payloads ∧ t.client.sent = wire.encodeAll done := by
  obtain ⟨t, hrun, hcalls, hsent⟩ := system.exists_run (fun _ _ => True) (start .fresh) intoMagic
    (fun t => t.calls = [.returned (ascii "a"), .returned (ascii "b")] ∧
      t.client.sent = MAGIC ++ frame (ascii "b") ++ (frame (ascii "a")).drop 4) (by decide +kernel)
  refine ⟨intoMagic, t, hrun, hcalls, ?_⟩
  rintro ⟨done, hperm, hwire⟩
  -- the peer's decoder finds a bad header at the front
  have hpay : t.payloads = [ascii "a", ascii "b"] := by
    rw [payloads, hcalls]
    decide
  rw [hpay] at hperm
  have hok : ∀ p ∈ done, Admissible p := by
    intro p hp
    have : ∀ p ∈ [ascii "a", ascii "b"], Admissible p := by decide
    exact this p (hperm.mem_iff.1 hp)
  have hbad : wireFront t.client.sent = .bad := by
    rw [hsent]
    exact wireFront_bad.2 ⟨by decide, by decide⟩
  have hnone : wire.Split t.client.sent [] t.client.sent := .nil fun m r hf => by cases hf.symm.trans hbad
  have hall : wire.Split t.client.sent done [] := hwire ▸ Codec.split_encodeAll hok
  have := hperm.length_eq
  rw [(hall.unique hnone).1] at this
  cases this

end Writers
end KnotLink.Python
