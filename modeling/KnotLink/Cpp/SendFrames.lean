import KnotLink.Cpp.Send
/-!
# Whole frames and at most one torn one

A call is on track while it has written the pieces before its next `::send` completely; a part-way call that is
not has torn its frame, by a short count or by an error. While nothing is torn, only the call that holds
`sendMutex` is part-way, so the calls write one at a time (`orderly_step`). Behind a torn frame a `::send` that
still writes is the defect; where none does, nothing follows (`silent_step`).
-/
namespace KnotLink.Cpp
open Lib

/-- How much of its frame a call that is on track has written before this `::send`. -/
def Stage.before : Stage → Nat
  | .magic => 0
  | .length => MAGIC_LEN
  | .data => HEADER_LEN

namespace SendCall

/-- The call as a writer of the channel. -/
def writer (c : SendCall) : Bytes × Nat := (c.data, c.wrote.length)

/-- The call holds the lock. -/
def inside (c : SendCall) : Bool :=
  match c.pc with
  | .sending _ => true
  | _ => false

/-- The call is going on and has written every piece so far. -/
def onTrack (c : SendCall) : Bool :=
  match c.pc with
  | .sending stage => c.wrote = (frame c.data).take stage.before
  | _ => false

/-- Some of the frame is written, and the rest will not follow. -/
def torn (c : SendCall) : Bool := wire.Partway c.writer && !c.onTrack

/-- The data of a call whose frame is all on the wire. -/
def payload? (c : SendCall) : Option Bytes := wire.finished? c.writer

theorem torn_iff {c : SendCall} : c.torn = true ↔ wire.Partway c.writer ∧ c.onTrack = false := by
  simp [torn]

theorem inside_of_onTrack {c : SendCall} (h : c.onTrack = true) : c.inside = true := by
  unfold onTrack at h
  unfold inside
  split at h
  · rfl
  · cases h

theorem inside_of_sending {c : SendCall} {stage : Stage} (h : c.pc = .sending stage) : c.inside = true := by
  simp [inside, h]

end SendCall

namespace Senders
variable {behind : Bytes → Bytes} {s u : Senders} {a : SendAct} {k : Nat} {c c' : SendCall} {stage : Stage}

/-- A `::send` that writes comes while no frame is torn, and writes bytes of its own frame. -/
def Clean (behind : Bytes → Bytes) (s : Senders) : SendAct → Prop
  | .send k (some (n + 1)) =>
    match s.calls[k]? with
    | some c =>
      match c.pc with
      | .sending stage => (∀ d ∈ s.calls, d.torn = false) ∧
          c.wrote ++ (stage.bytes behind c.data).take (n + 1) <+: frame c.data
      | _ => True
    | none => True
  | _ => True

instance (behind : Bytes → Bytes) (s : Senders) (a : SendAct) : Decidable (Clean behind s a) := by
  unfold Clean
  split
  · split
    · split <;> infer_instance
    · infer_instance
  · infer_instance

theorem Clean.send {n : Nat} (h : Clean behind s (.send k (some n))) (hn : n ≠ 0) (hk : s.calls[k]? = some c)
    (hpc : c.pc = .sending stage) : (∀ d ∈ s.calls, d.torn = false) ∧
      c.wrote ++ (stage.bytes behind c.data).take n <+: frame c.data := by
  cases n with
  | zero => exact absurd rfl hn
  | succ n =>
    simp only [Clean, hk, hpc] at h
    exact h

/-! ## The calls as writers -/

def writers (s : Senders) : List (Bytes × Nat) := s.calls.map SendCall.writer

theorem writers_get (hk : s.calls[k]? = some c) : s.writers[k]? = some c.writer := by
  rw [writers, List.getElem?_map, hk]
  rfl

theorem get_writers {w : Bytes × Nat} (hk : s.writers[k]? = some w) : ∃ c, s.calls[k]? = some c ∧ c.writer = w := by
  rwa [writers, List.getElem?_map, Option.map_eq_some_iff] at hk

/-- What holds between the steps of such a run. -/
structure Orderly (s : Senders) : Prop where
  own : ∀ (k : Nat) (c : SendCall), s.calls[k]? = some c → c.wrote <+: frame c.data
  locked : ∀ (k : Nat) (c : SendCall), s.calls[k]? = some c → c.inside = true → s.sendMutex = some k
  channel : ∃ done part, wire.Channel [] s.stream s.writers done part
  alone : ∀ (j k : Nat) (v w : Bytes × Nat), s.writers[j]? = some v → s.writers[k]? = some w →
    wire.Partway v → wire.Partway w → j = k

/-- Only one call is inside. -/
theorem Orderly.unique (hI : Orderly s) {j : Nat} {d : SendCall} (hk : s.calls[k]? = some c) (hc : c.inside = true)
    (hj : s.calls[j]? = some d) (hd : d.inside = true) : j = k := by
  have hjk := (hI.locked j d hj hd).symm.trans (hI.locked k c hk hc)
  exact Option.some.inj hjk

/-- A step that writes nothing. -/
theorem Orderly.quiet (hI : Orderly s) (hk : s.calls[k]? = some c) (c' : SendCall) (hdata : c'.data = c.data)
    (hwrote : c'.wrote = c.wrote) {running : Bool} {sendMutex : Option Nat}
    (hlock : ∀ (j : Nat) (d : SendCall), (s.calls.set k c')[j]? = some d → d.inside = true → sendMutex = some j) :
    Orderly { s with running, sendMutex, calls := s.calls.set k c' } := by
  have hw : (s.calls.set k c').map SendCall.writer = s.writers :=
    map_set_same hk (by simp [SendCall.writer, hdata, hwrote])
  refine ⟨?_, hlock, ?_, ?_⟩
  · intro j d hj
    rcases (getElem?_set_iff hk).1 hj with ⟨-, rfl⟩ | ⟨-, hj⟩
    · rw [hwrote, hdata]
      exact hI.own k c hk
    · exact hI.own j d hj
  · simp only [writers, hw]
    exact hI.channel
  · simp only [writers, hw]
    exact hI.alone

/-- A new call. -/
theorem Orderly.join (hI : Orderly s) (data : Bytes) (beat : Option Nat) :
    Orderly { s with calls := s.calls ++ [⟨data, .entered, []⟩], beat } := by
  have hw : (s.calls ++ [(⟨data, .entered, []⟩ : SendCall)]).map SendCall.writer = s.writers ++ [(data, 0)] := by
    simp [writers, SendCall.writer]
  have hold : ∀ {j : Nat} {w : Bytes × Nat}, (s.writers ++ [(data, 0)])[j]? = some w → wire.Partway w →
      s.writers[j]? = some w := by
    intro j w hj hp
    rcases getElem?_concat_iff.1 hj with ⟨-, rfl⟩ | hj
    · exact absurd rfl hp.1
    · exact hj
  refine ⟨?_, ?_, ?_, ?_⟩
  · intro j d hj
    rcases getElem?_concat_iff.1 hj with ⟨-, rfl⟩ | hj
    · exact List.nil_prefix
    · exact hI.own j d hj
  · intro j d hj hd
    rcases getElem?_concat_iff.1 hj with ⟨-, rfl⟩ | hj
    · cases hd
    · exact hI.locked j d hj hd
  · obtain ⟨done, part, h⟩ := hI.channel
    refine ⟨done, part, ?_⟩
    simp only [writers, hw]
    exact h.join data
  · intro i j v w hi hj hv hq
    simp only [writers, hw] at hi hj
    exact hI.alone i j v w (hold hi hv) (hold hj hq) hv hq

/-- While nothing is torn, only the call that holds the lock is part-way. -/
theorem Orderly.holder (hI : Orderly s) (hk : s.calls[k]? = some c) (hc : c.inside = true)
    (huntorn : ∀ d ∈ s.calls, d.torn = false) {j : Nat} {w : Bytes × Nat} (hj : s.writers[j]? = some w)
    (hp : wire.Partway w) : j = k := by
  obtain ⟨d, hd, rfl⟩ := get_writers hj
  have htrack : d.onTrack = true := by
    by_contra hoff
    have := huntorn d (List.mem_of_getElem? hd)
    rw [SendCall.torn_iff.2 ⟨hp, Bool.not_eq_true _ ▸ hoff⟩] at this
    cases this
  exact hI.unique hk hc hd (SendCall.inside_of_onTrack htrack)

/-- Some bytes of the frame of the call that holds the lock, nothing being torn. -/
theorem Orderly.write (hI : Orderly s) (hk : s.calls[k]? = some c) (hc : c.inside = true)
    (huntorn : ∀ d ∈ s.calls, d.torn = false) {bytes : Bytes} (hne : bytes ≠ [])
    (hown : c.wrote ++ bytes <+: frame c.data) {pc : SendPc} {sendMutex : Option Nat}
    (hlock : (⟨c.data, pc, c.wrote ++ bytes⟩ : SendCall).inside = true → sendMutex = some k) :
    Orderly { s with
      stream := s.stream ++ bytes
      sendMutex
      calls := s.calls.set k ⟨c.data, pc, c.wrote ++ bytes⟩ } := by
  have hothers : ∀ (j : Nat) (w : Bytes × Nat), s.writers[j]? = some w → wire.Partway w → j = k :=
    fun j w hj hp => hI.holder hk hc huntorn hj hp
  have hw : (s.calls.set k ⟨c.data, pc, c.wrote ++ bytes⟩).map SendCall.writer =
      s.writers.set k (c.data, c.wrote.length + bytes.length) := by
    simp [writers, List.map_set, SendCall.writer]
  have hslice : slice (frame c.data) c.wrote.length (c.wrote.length + bytes.length) = bytes := by
    obtain ⟨rest, hrest⟩ := hown
    rw [← hrest]
    exact slice_append_append _ _ _ rfl rfl
  have hlen : c.wrote.length + bytes.length ≤ (frame c.data).length := by
    have := hown.length_le
    rwa [List.length_append] at this
  have hpos : 0 < bytes.length := List.length_pos_iff.2 hne
  refine ⟨?_, ?_, ?_, ?_⟩
  · intro j d hj
    rcases (getElem?_set_iff hk).1 hj with ⟨-, rfl⟩ | ⟨-, hj⟩
    · exact hown
    · exact hI.own j d hj
  · intro j d hj hd
    rcases (getElem?_set_iff hk).1 hj with ⟨rfl, rfl⟩ | ⟨hjk, hj⟩
    · exact hlock hd
    · exact absurd (hI.unique hk hc hj hd) hjk
  · obtain ⟨done, part, h⟩ := hI.channel
    have hlt : c.wrote.length < c.wrote.length + bytes.length := Nat.lt_add_of_pos_right hpos
    obtain ⟨done', part', h'⟩ := h.write (writers_get hk) hlt hlen hothers
    refine ⟨done', part', ?_⟩
    rw [wire_encode, hslice] at h'
    simp only [writers, hw]
    exact h'
  · intro i j v w hi hj hv hq
    simp only [writers, hw] at hi hj
    have hmine : ∀ {j : Nat} {w : Bytes × Nat},
        (s.writers.set k (c.data, c.wrote.length + bytes.length))[j]? = some w → wire.Partway w → j = k := by
      intro j w hj hp
      rcases (getElem?_set_iff (writers_get hk)).1 hj with ⟨hjk, -⟩ | ⟨-, hj⟩
      · exact hjk
      · exact hothers j w hj hp
    exact (hmine hi hv).trans (hmine hj hq).symm

theorem orderly_step (hI : Orderly s) (hok : Clean behind s a) (h : step behind s a = some u) : Orderly u := by
  cases step_cases h with
  | @entered data => exact hI.join data s.beat
  | beat => exact hI.join KnotLink.heartbeat _
  | @locked k data wrote hfree hk =>
    refine hI.quiet hk ⟨data, .sending .magic, wrote⟩ rfl rfl ?_
    intro j d hj hd
    rcases (getElem?_set_iff hk).1 hj with ⟨rfl, -⟩ | ⟨-, hj⟩
    · rfl
    · have := hI.locked j d hj hd
      rw [hfree] at this
      cases this
  | @failed k c stage hk hpc =>
    refine hI.quiet hk { c with pc := .failed stage } rfl rfl ?_
    intro j d hj hd
    rcases (getElem?_set_iff hk).1 hj with ⟨-, rfl⟩ | ⟨hjk, hj⟩
    · cases hd
    · exact absurd (hI.unique hk (SendCall.inside_of_sending hpc) hj hd) hjk
  | @sent k n c stage hk hpc hn h0 =>
    have hc := SendCall.inside_of_sending hpc
    have hlock : (⟨c.data, stage.next, c.wrote ++ (stage.bytes behind c.data).take n⟩ : SendCall).inside = true →
        (if stage = .data then none else s.sendMutex) = some k := by
      cases stage with
      | magic | length => exact fun _ => hI.locked k c hk hc
      | data => exact fun h => by cases h
    by_cases hzero : n = 0
    · -- a `::send` of nothing
      subst hzero
      simp only [List.take_zero, List.append_nil] at hlock ⊢
      refine hI.quiet hk { c with pc := stage.next } rfl rfl ?_
      intro j d hj hd
      rcases (getElem?_set_iff hk).1 hj with ⟨rfl, rfl⟩ | ⟨hjk, hj⟩
      · exact hlock hd
      · exact absurd (hI.unique hk hc hj hd) hjk
    · obtain ⟨huntorn, hown⟩ := hok.send hzero hk hpc
      refine hI.write hk hc huntorn ?_ hown hlock
      intro hnil
      have := congrArg List.length hnil
      rw [List.length_take, List.length_nil] at this
      omega
  | stopped => exact ⟨hI.own, hI.locked, hI.channel, hI.alone⟩

/-! ## Behind a torn frame -/

/-- A frame on the stream is torn. -/
def Torn (s : Senders) : Prop := ∃ c ∈ s.calls, c.torn = true

instance (s : Senders) : Decidable (Torn s) := inferInstanceAs (Decidable (∃ c ∈ s.calls, c.torn = true))

theorem silent_step (ht : Torn s) (hok : Clean behind s a) (h : step behind s a = some u) :
    Torn u ∧ u.stream = s.stream := by
  cases step_cases h with
  | entered | beat =>
    obtain ⟨d, hd, htorn⟩ := ht
    exact ⟨⟨d, List.mem_append_left _ hd, htorn⟩, rfl⟩
  | @locked k data wrote hfree hk =>
    refine ⟨exists_mem_set hk (fun hc => ?_) ht, rfl⟩
    have hway := (SendCall.torn_iff.1 hc).1
    -- a call without a byte is not part-way
    have hne : wrote ≠ [] := fun h => hway.1 (by simp [SendCall.writer, h])
    exact SendCall.torn_iff.2 ⟨hway, by simp [SendCall.onTrack, Stage.before, hne]⟩
  | failed hk hpc =>
    refine ⟨exists_mem_set hk (fun hc => ?_) ht, rfl⟩
    exact SendCall.torn_iff.2 ⟨(SendCall.torn_iff.1 hc).1, rfl⟩
  | @sent k n c stage hk hpc hn h0 =>
    by_cases hzero : n = 0
    · subst hzero
      have hdata : stage = .data := by
        cases stage with
        | magic => cases h0 rfl
        | length =>
          have := congrArg List.length (h0 rfl)
          rw [Stage.bytes, length_toBE] at this
          cases this
        | data => rfl
      subst hdata
      simp only [List.take_zero, List.append_nil]
      refine ⟨exists_mem_set hk (fun hc => ?_) ht, trivial⟩
      exact SendCall.torn_iff.2 ⟨(SendCall.torn_iff.1 hc).1, rfl⟩
    · obtain ⟨d, hd, htorn⟩ := ht
      rw [(hok.send hzero hk hpc).1 d hd] at htorn
      cases htorn
  | stopped => exact ⟨ht, rfl⟩

/-- **Whole frames, at most one torn one, and nothing behind it**, in every run in which a `::send` writes only
while no frame is torn, and only bytes of its own frame: the stream holds the whole frames, in some order, and a
proper part of at most one more; once that frame is torn, nothing is written any more. -/
theorem frames_then_silence {as bs : List SendAct} {s t : Senders}
    (h : (system behind).Runs (Clean behind) start as s) (h' : (system behind).Runs (Clean behind) s bs t) :
    (∃ done part, s.stream = wire.encodeAll done ++ part ∧ done.Perm (s.calls.filterMap SendCall.payload?) ∧
      (part = [] ∨ ∃ c ∈ s.calls, part = c.wrote ∧ part <+: frame c.data ∧ part.length < (frame c.data).length)) ∧
    (Torn s → t.stream = s.stream) := by
  have hstart : Orderly start := by
    refine ⟨?_, ?_, ⟨[], [], .nil⟩, ?_⟩ <;> simp [start, writers]
  have hs : Orderly s := h.invariant (fun hI hok hstep => orderly_step hI hok hstep) hstart
  constructor
  · obtain ⟨done, part, hch⟩ := hs.channel
    obtain ⟨hperm, hpart⟩ := hch.of_calls
    refine ⟨done, part, by simpa using hch.eq, hperm, hpart.imp id ?_⟩
    rintro ⟨k, c, hc, -, htake, hlt⟩
    have hown := hs.own k c hc
    have heq : part = c.wrote := htake.trans (List.prefix_iff_eq_take.1 hown).symm
    exact ⟨c, List.mem_of_getElem? hc, heq, heq ▸ hown, hlt⟩
  · intro ht
    have hinv : Torn t ∧ t.stream = s.stream := by
      apply h'.invariant (I := fun t => Torn t ∧ t.stream = s.stream)
      · rintro v a u ⟨hT, heq⟩ hok hstep
        obtain ⟨hT', heq'⟩ := silent_step hT hok hstep
        exact ⟨hT', heq'.trans heq⟩
      · exact ⟨ht, rfl⟩
    exact hinv.2

/-- A whole frame, then one whose data is cut short. -/
def shortData : List SendAct :=
  [.sendData (ascii "ab"), .sendData (ascii "cd"), .lock 0, .send 0 (some 4), .send 0 (some 4), .send 0 (some 2),
    .lock 1, .send 1 (some 4), .send 1 (some 4), .send 1 (some 1)]

/-- The connection is dead: the next call writes nothing. -/
def deadConnection : List SendAct := [.sendData (ascii "ef"), .lock 2, .send 2 none]

theorem frames_then_silence_short : ∃ s t : Senders,
    (system fun _ => []).Runs (Clean fun _ => []) start shortData s ∧
    (system fun _ => []).Runs (Clean fun _ => []) s deadConnection t ∧
    s.stream = frame (ascii "ab") ++ (frame (ascii "cd")).take 9 ∧ t.stream = s.stream := by
  obtain ⟨s, hs, hstream, htorn, ht⟩ := (system fun _ => []).exists_run (Clean fun _ => []) start shortData
    (fun s => s.stream = frame (ascii "ab") ++ (frame (ascii "cd")).take 9 ∧ Torn s ∧
      ∃ t ∈ (system fun _ => []).exec (Clean fun _ => []) s deadConnection, t.calls.length = 3) (by decide +kernel)
  obtain ⟨t, ht, -⟩ := (system fun _ => []).exists_run (Clean fun _ => []) s deadConnection
    (fun t => t.calls.length = 3) ht
  exact ⟨s, t, hs, ht, hstream, (frames_then_silence hs ht).2 htorn⟩

/-- The first `::send` takes two of the four bytes of the magic, and nobody notices. -/
def shortMagic : List SendAct :=
  [.sendData (ascii "a"), .lock 0, .send 0 (some 2), .send 0 (some 4), .send 0 (some 1)]

/-- The stream then is not whole frames and the beginning of one more. -/
theorem length_behind_short_magic : ∃ (as : List SendAct) (t : Senders),
    (system fun _ => []).Runs (fun _ _ => True) start as t ∧ t.calls.map (·.pc) = [.returned] ∧
    ¬ ∃ (done : List Bytes) (p : Bytes) (n : Nat), t.stream = wire.encodeAll done ++ (frame p).take n := by
  obtain ⟨t, hrun, hpc, hstream⟩ := (system fun _ => []).exists_run (fun _ _ => True) start shortMagic
    (fun t => t.calls.map (·.pc) = [.returned] ∧ t.stream = [0x4B, 0x4B, 0, 0, 0, 1, 0x61]) (by decide +kernel)
  refine ⟨shortMagic, t, hrun, hpc, ?_⟩
  rintro ⟨done, p, n, heq⟩
  rw [hstream] at heq
  -- a frame at the front would begin with the magic
  have hmagic : ∀ r, ([0x4B, 0x4B, 0, 0, 0, 1, 0x61] : Bytes) ≠ MAGIC ++ r := by
    intro r h
    have htake := congrArg (List.take 4) h
    rw [show (MAGIC ++ r).take 4 = MAGIC from List.take_left' rfl] at htake
    revert htake
    decide
  cases done with
  | nil =>
    have hlen := congrArg List.length heq
    simp only [Codec.encodeAll_nil, List.nil_append, List.length_take, List.length_cons, List.length_nil] at hlen
    refine hmagic ((toBE 4 p.length ++ p).take (n - 4)) ?_
    rw [heq, Codec.encodeAll_nil, List.nil_append, frame, List.append_assoc, List.take_append,
      List.take_of_length_le (by simp; omega)]
    rfl
  | cons m ms =>
    refine hmagic (toBE 4 m.length ++ m ++ (wire.encodeAll ms ++ (frame p).take n)) ?_
    rw [heq, Codec.encodeAll_cons, wire_encode, frame]
    simp only [List.append_assoc]

end Senders
end KnotLink.Cpp
