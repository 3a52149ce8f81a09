import KnotLink.Java.Send
import KnotLink.Lib.Run
/-!
# Java `TcpClient` (TcpClient.java), the sender, by many threads

Application threads call `sendData` and the scheduler's thread writes the heartbeat, all on one stream. The header and
the data are two writes that the stream takes piece by piece, and an `IOException` may come behind any piece; but
`writeWithLengthPrefix` is `synchronized` (TcpClient.java:56), so a call is alone from its first byte to its last.

`finished` lists the calls in the order in which they leave the monitor, with how their writes went. The stream is what
`Writer.writeWithLengthPrefix` makes of them one after another (`writes_serialise`): nothing is seen of the
interleaving but the part that the call inside has written.
-/
namespace KnotLink.Java
open Lib

/-- Where a call of `writeWithLengthPrefix` stands. -/
inductive WritePc where
  /-- Before the monitor. -/
  | entering
  /-- Inside: the stream has taken `n` bytes of header and data. -/
  | writing (n : Nat)
  | over (result : Except IoException Unit)
  deriving DecidableEq, Repr

structure WriteCall where
  data : Bytes
  pc : WritePc
  deriving DecidableEq, Repr

/-- A call that has left the monitor. -/
structure Finished where
  call : Nat
  data : Bytes
  write : Write
  deriving DecidableEq, Repr

/-- A client with a stream. -/
structure Writers where
  running : Bool
  /-- `socket != null && !socket.isClosed()`. -/
  socketOpen : Bool
  /-- The bytes that `out` has taken. -/
  out : Bytes
  /-- The call inside the monitor. -/
  owner : Option Nat
  /-- The calls by number. -/
  calls : List WriteCall
  /-- The heartbeat's last call. -/
  beat : Option Nat
  finished : List Finished
  deriving DecidableEq, Repr

inductive WriteAct where
  | sendData (data : Bytes)
  /-- The scheduler runs its task. -/
  | heartbeat
  | enter (k : Nat)
  /-- The stream takes `n` more bytes of call `k`. -/
  | take (k n : Nat)
  /-- `flush`, and the end of the monitor. -/
  | leave (k : Nat)
  | fail (k : Nat) (e : IoException)
  | disconnect
  deriving DecidableEq, Repr

def WritePc.isOver : WritePc → Bool
  | .over _ => true
  | .entering | .writing _ => false

/-- How the call ends when it is alone. -/
def Finished.result (d : Finished) : Except IoException Unit := (Writer.writeWithLengthPrefix [] d.data d.write).2

/-- The data of a call that has returned. -/
def Finished.payload? (d : Finished) : Option Bytes :=
  match d.result with
  | .ok () => some d.data
  | .error _ => none

/-- No exception has come inside the frame. -/
def Finished.Whole (d : Finished) : Prop :=
  match d.write with
  | .ok => True
  | .fails n _ => n = 0

instance (d : Finished) : Decidable d.Whole := by
  unfold Finished.Whole
  split <;> infer_instance

namespace Writers

/-- A connected client whose stream has taken `base`. -/
def start (base : Bytes) : Writers := ⟨true, true, base, none, [], none, []⟩

def goto (s : Writers) (k : Nat) (data : Bytes) (pc : WritePc) : Writers :=
  { s with calls := s.calls.set k ⟨data, pc⟩ }

/-- Call `k` leaves the monitor. -/
def finish (s : Writers) (k : Nat) (data : Bytes) (write : Write) : Writers :=
  { s.goto k data (.over (Finished.result ⟨k, data, write⟩)) with
    owner := none
    finished := s.finished ++ [⟨k, data, write⟩] }

def step (s : Writers) : WriteAct → Option Writers
  | .sendData data => some { s with calls := s.calls ++ [⟨data, .entering⟩] }
  | .heartbeat =>
    -- one thread, so the task's run before is over
    if s.running ∧ s.socketOpen ∧ (s.beat.bind fun k => s.calls[k]?).all (·.pc.isOver) then
      some { s with calls := s.calls ++ [⟨KnotLink.heartbeat, .entering⟩], beat := some s.calls.length }
    else none
  | .enter k =>
    match s.owner, s.calls[k]? with
    | none, some ⟨data, .entering⟩ =>
      -- `Message too large` is thrown before anything is written
      if data.length > MAX_MSG_SIZE then some (s.finish k data .ok)
      else some { s.goto k data (.writing 0) with owner := some k }
    | _, _ => none
  | .take k n =>
    match s.calls[k]? with
    | some ⟨data, .writing m⟩ =>
      -- a closed socket takes nothing
      if s.socketOpen ∧ 1 ≤ n ∧ m + n ≤ (frame data).length then
        some { s.goto k data (.writing (m + n)) with out := s.out ++ slice (frame data) m (m + n) }
      else none
    | _ => none
  | .leave k =>
    match s.calls[k]? with
    | some ⟨data, .writing m⟩ => if m = (frame data).length then some (s.finish k data .ok) else none
    | _ => none
  | .fail k e =>
    match s.calls[k]? with
    | some ⟨data, .writing m⟩ => if m < (frame data).length then some (s.finish k data (.fails m e)) else none
    | _ => none
  | .disconnect => some { s with running := false, socketOpen := false }

def system : System Writers WriteAct := ⟨step⟩

/-- The ways a step can go. -/
inductive Step (s : Writers) : WriteAct → Writers → Prop where
  | sendData {data : Bytes} : Step s (.sendData data) { s with calls := s.calls ++ [⟨data, .entering⟩] }
  | heartbeat : Step s .heartbeat
      { s with calls := s.calls ++ [⟨KnotLink.heartbeat, .entering⟩], beat := some s.calls.length }
  | refused {k : Nat} {data : Bytes} (hfree : s.owner = none) (hk : s.calls[k]? = some ⟨data, .entering⟩)
      (hlen : MAX_MSG_SIZE < data.length) : Step s (.enter k) (s.finish k data .ok)
  | entered {k : Nat} {data : Bytes} (hfree : s.owner = none) (hk : s.calls[k]? = some ⟨data, .entering⟩)
      (hlen : data.length ≤ MAX_MSG_SIZE) :
      Step s (.enter k) { s.goto k data (.writing 0) with owner := some k }
  | took {k n m : Nat} {data : Bytes} (hk : s.calls[k]? = some ⟨data, .writing m⟩) (hn : 1 ≤ n)
      (hlen : m + n ≤ (frame data).length) : Step s (.take k n)
      { s.goto k data (.writing (m + n)) with out := s.out ++ slice (frame data) m (m + n) }
  | left {k : Nat} {data : Bytes} (hk : s.calls[k]? = some ⟨data, .writing (frame data).length⟩) :
      Step s (.leave k) (s.finish k data .ok)
  | failed {k m : Nat} {data : Bytes} {e : IoException} (hk : s.calls[k]? = some ⟨data, .writing m⟩)
      (hlen : m < (frame data).length) : Step s (.fail k e) (s.finish k data (.fails m e))
  | disconnect : Step s .disconnect { s with running := false, socketOpen := false }

theorem step_cases {s u : Writers} {a : WriteAct} (h : step s a = some u) : Step s a u := by
  cases a with
  | sendData data =>
    cases h
    exact .sendData
  | heartbeat =>
    simp only [step] at h
    split at h <;> cases h
    exact .heartbeat
  | enter k =>
    simp only [step] at h
    split at h
    · rename_i hfree hk
      split at h
      · rename_i hlen
        cases h
        exact .refused hfree hk hlen
      · rename_i hlen
        cases h
        exact .entered hfree hk (Nat.le_of_not_lt hlen)
    · cases h
  | take k n =>
    simp only [step] at h
    split at h
    · rename_i hk
      split at h
      · rename_i hn
        cases h
        exact .took hk hn.2.1 hn.2.2
      · cases h
    · cases h
  | leave k =>
    simp only [step] at h
    split at h
    · rename_i hk
      split at h
      · rename_i hm
        cases h
        exact .left (hm ▸ hk)
      · cases h
    · cases h
  | fail k e =>
    simp only [step] at h
    split at h
    · rename_i hk
      split at h
      · rename_i hm
        cases h
        exact .failed hk hm
      · cases h
    · cases h
  | disconnect =>
    cases h
    exact .disconnect

/-! ## One call after another -/

/-- The stream when calls write one after another. -/
def serial (base : Bytes) (ds : List Finished) : Bytes :=
  ds.foldl (fun out d => (Writer.writeWithLengthPrefix out d.data d.write).1) base

/-- What the call inside the monitor has written. -/
def part (s : Writers) : Bytes :=
  match s.owner.bind fun k => s.calls[k]? with
  | some ⟨data, .writing n⟩ => (frame data).take n
  | _ => []

theorem serial_concat (base : Bytes) (ds : List Finished) (d : Finished) :
    serial base (ds ++ [d]) = (Writer.writeWithLengthPrefix (serial base ds) d.data d.write).1 := by
  simp [serial]

theorem write_tooLarge {out data : Bytes} {write : Write} (h : MAX_MSG_SIZE < data.length) :
    Writer.writeWithLengthPrefix out data write = (out, .error (tooLarge data.length)) :=
  if_pos h

theorem write_taken {out data : Bytes} {write : Write} (h : data.length ≤ MAX_MSG_SIZE) :
    (Writer.writeWithLengthPrefix out data write).1 = out ++ write.taken (frame data) := by
  simp [Writer.writeWithLengthPrefix, Nat.not_lt.2 h, frame]

variable {base : Bytes} {s u : Writers} {a : WriteAct} {k : Nat} {data : Bytes}

/-- The calls are inside one at a time, the stream is the serial one and what the call inside has written, and the
calls that are over are the finished ones, each once and with its own result. -/
structure Serial (base : Bytes) (s : Writers) : Prop where
  inside : ∀ {k data n}, s.calls[k]? = some ⟨data, .writing n⟩ → s.owner = some k ∧ data.length ≤ MAX_MSG_SIZE
  owner : ∀ {k}, s.owner = some k → ∃ data n, s.calls[k]? = some ⟨data, .writing n⟩
  out : s.out = serial base s.finished ++ s.part
  finished : ∀ {d}, d ∈ s.finished → s.calls[d.call]? = some ⟨d.data, .over d.result⟩
  ended : ∀ {k data r}, s.calls[k]? = some ⟨data, .over r⟩ → k ∈ s.finished.map (·.call)
  once : (s.finished.map (·.call)).Nodup

theorem serial_start (base : Bytes) : Serial base (start base) where
  inside h := by simp [start] at h
  owner h := by simp [start] at h
  out := by simp [start, serial, part]
  finished h := by simp [start] at h
  ended h := by simp [start] at h
  once := List.nodup_nil

theorem part_free (h : s.owner = none) : s.part = [] := by
  rw [part, h]
  rfl

theorem part_inside {n : Nat} (h : s.owner = some k) (hk : s.calls[k]? = some ⟨data, .writing n⟩) :
    s.part = (frame data).take n := by
  rw [part, h, Option.bind_some, hk]

/-- A call that is not over has not left the monitor. -/
theorem Serial.unfinished (hI : Serial base s) {pc : WritePc} (hk : s.calls[k]? = some ⟨data, pc⟩)
    (hpc : pc.isOver = false) : k ∉ s.finished.map (·.call) := by
  intro hmem
  obtain ⟨d, hd, rfl⟩ := List.mem_map.1 hmem
  have := hI.finished hd
  rw [hk] at this
  cases this
  cases hpc

/-- A new call. -/
theorem Serial.join (hI : Serial base s) (data : Bytes) (beat : Option Nat) :
    Serial base { s with calls := s.calls ++ [⟨data, .entering⟩], beat } where
  inside h := by
    rcases getElem?_concat_iff.1 h with ⟨-, h⟩ | h
    · cases h
    · exact hI.inside h
  owner h := by
    obtain ⟨d, n, hd⟩ := hI.owner h
    exact ⟨d, n, getElem?_concat_iff.2 (.inr hd)⟩
  out := by
    have hpart : part { s with calls := s.calls ++ [⟨data, .entering⟩], beat } = s.part := by
      rcases Option.eq_none_or_eq_some s.owner with ho | ⟨k, ho⟩
      · rw [part_free ho, part_free]
        exact ho
      · obtain ⟨d, n, hd⟩ := hI.owner ho
        rw [part_inside ho hd]
        exact part_inside (s := { s with calls := s.calls ++ [⟨data, .entering⟩], beat }) ho
          (getElem?_concat_iff.2 (.inr hd))
    rw [hpart]
    exact hI.out
  finished h := getElem?_concat_iff.2 (.inr (hI.finished h))
  ended h := by
    rcases getElem?_concat_iff.1 h with ⟨-, h⟩ | h
    · cases h
    · exact hI.ended h
  once := hI.once

/-- The call inside, or the one that has found the monitor free, leaves it. -/
theorem Serial.leave (hI : Serial base s) {pc : WritePc} (hk : s.calls[k]? = some ⟨data, pc⟩)
    (hpc : pc.isOver = false) {write : Write}
    (hout : s.out = (Writer.writeWithLengthPrefix (serial base s.finished) data write).1)
    (howner : ∀ j, s.owner = some j → j = k) : Serial base (s.finish k data write) := by
  have hnew := hI.unfinished hk hpc
  refine ⟨?_, ?_, ?_, ?_, ?_, ?_⟩
  · intro j d n hj
    rcases (getElem?_set_iff hk).1 hj with ⟨-, h⟩ | ⟨hjk, hj⟩
    · cases h
    · exact absurd (howner j (hI.inside hj).1) hjk
  · intro j hj
    cases hj
  · rw [part_free (s := s.finish k data write) rfl, List.append_nil]
    exact hout.trans (serial_concat base s.finished ⟨k, data, write⟩).symm
  · intro d hd
    rcases List.mem_append.1 hd with hd | hd
    · have hcall : d.call ≠ k := fun h => hnew (h ▸ List.mem_map_of_mem hd)
      exact (getElem?_set_iff hk).2 (.inr ⟨hcall, hI.finished hd⟩)
    · rw [List.mem_singleton.1 hd]
      exact (getElem?_set_iff hk).2 (.inl ⟨rfl, rfl⟩)
  · intro j d r hj
    simp only [finish, List.map_append, List.map_singleton, List.mem_append, List.mem_singleton]
    rcases (getElem?_set_iff hk).1 hj with ⟨rfl, -⟩ | ⟨-, hj⟩
    · exact .inr rfl
    · exact .inl (hI.ended hj)
  · simp only [finish, List.map_append, List.map_singleton]
    refine List.nodup_append.2 ⟨hI.once, by simp, ?_⟩
    rintro j hj _ hk rfl
    exact hnew (List.mem_singleton.1 hk ▸ hj)

/-- A call enters the monitor or goes on writing inside it. -/
theorem Serial.write (hI : Serial base s) {pc : WritePc} (hk : s.calls[k]? = some ⟨data, pc⟩)
    (hpc : pc.isOver = false) (hlen : data.length ≤ MAX_MSG_SIZE) (n : Nat) (out : Bytes)
    (hout : out = serial base s.finished ++ (frame data).take n) (howner : ∀ j, s.owner = some j → j = k) :
    Serial base { s.goto k data (.writing n) with owner := some k, out } := by
  have hnew := hI.unfinished hk hpc
  have hself : (s.calls.set k ⟨data, .writing n⟩)[k]? = some ⟨data, .writing n⟩ :=
    (getElem?_set_iff hk).2 (.inl ⟨rfl, rfl⟩)
  refine ⟨?_, ?_, ?_, ?_, ?_, hI.once⟩
  · intro j d m hj
    rcases (getElem?_set_iff hk).1 hj with ⟨rfl, h⟩ | ⟨hjk, hj⟩
    · cases h
      exact ⟨rfl, hlen⟩
    · exact absurd (howner j (hI.inside hj).1) hjk
  · intro j hj
    cases hj
    exact ⟨data, n, hself⟩
  · rw [part_inside (s := { s.goto k data (.writing n) with owner := some k, out }) rfl hself]
    exact hout
  · intro d hd
    have hcall : d.call ≠ k := fun h => hnew (h ▸ List.mem_map_of_mem hd)
    exact (getElem?_set_iff hk).2 (.inr ⟨hcall, hI.finished hd⟩)
  · intro j d r hj
    rcases (getElem?_set_iff hk).1 hj with ⟨-, h⟩ | ⟨-, hj⟩
    · cases h
    · exact hI.ended hj

theorem serial_step (hI : Serial base s) (h : step s a = some u) : Serial base u := by
  have hfree {k : Nat} (h : s.owner = none) : ∀ j, s.owner = some j → j = k := by simp [h]
  have hmine {k n : Nat} {data : Bytes} (hk : s.calls[k]? = some ⟨data, .writing n⟩) :
      ∀ j, s.owner = some j → j = k := by
    intro j hj
    exact Option.some.inj (hj.symm.trans (hI.inside hk).1)
  cases step_cases h with
  | @sendData data => exact hI.join data s.beat
  | heartbeat => exact hI.join KnotLink.heartbeat _
  | refused ho hk hlen =>
    refine hI.leave hk rfl ?_ (hfree ho)
    rw [write_tooLarge hlen, hI.out, part_free ho, List.append_nil]
  | entered ho hk hlen =>
    refine hI.write hk rfl hlen 0 s.out ?_ (hfree ho)
    rw [hI.out, part_free ho, List.take_zero]
  | @took k n m data hk hn hle =>
    obtain ⟨ho, hlen⟩ := hI.inside hk
    have := hI.write hk rfl hlen (m + n) (s.out ++ slice (frame data) m (m + n)) ?_ (hmine hk)
    · rwa [← ho] at this
    · rw [hI.out, part_inside ho hk, List.append_assoc, take_append_slice _ (Nat.le_add_right m n)]
  | left hk =>
    obtain ⟨ho, hlen⟩ := hI.inside hk
    refine hI.leave hk rfl ?_ (hmine hk)
    rw [write_taken hlen, hI.out, part_inside ho hk, List.take_length]
    rfl
  | failed hk hle =>
    obtain ⟨ho, hlen⟩ := hI.inside hk
    refine hI.leave hk rfl ?_ (hmine hk)
    rw [write_taken hlen, hI.out, part_inside ho hk]
    rfl
  | disconnect => exact ⟨hI.inside, hI.owner, hI.out, hI.finished, hI.ended, hI.once⟩

theorem finished_step (h : step s a = some u) : s.finished <+: u.finished := by
  cases step_cases h with
  | sendData | heartbeat | entered | took | disconnect => exact List.prefix_rfl
  | refused | left | failed => exact List.prefix_append _ _

/-- **The monitor makes the writers serial**: at any point of any run the stream has taken what the calls that have
left the monitor make of it one after another, in the order in which they left it, and behind that a part of the frame
of the call inside, if there is one. The calls that are over are those, each once and with the result it has alone, and
the order only grows: a call that is over when another one begins comes before it. -/
theorem writes_serialise {as bs : List WriteAct} {t : Writers} (h : system.Runs (fun _ _ => True) (start base) as s)
    (h' : system.Runs (fun _ _ => True) s bs t) :
    (s.out = serial base s.finished ++ s.part ∧ (s.part = [] ∨ ∃ k data n, s.owner = some k ∧
      s.calls[k]? = some ⟨data, .writing n⟩ ∧ s.part = (frame data).take n)) ∧
    ((s.finished.map (·.call)).Nodup ∧ (∀ d ∈ s.finished, s.calls[d.call]? = some ⟨d.data, .over d.result⟩) ∧
      ∀ k data r, s.calls[k]? = some ⟨data, .over r⟩ → k ∈ s.finished.map (·.call)) ∧
    s.finished <+: t.finished := by
  have hI : Serial base s := h.invariant (fun hI _ hst => serial_step hI hst) (serial_start base)
  refine ⟨⟨hI.out, ?_⟩, ⟨hI.once, fun d hd => hI.finished hd, fun k data r hk => hI.ended hk⟩, ?_⟩
  · rcases Option.eq_none_or_eq_some s.owner with ho | ⟨k, ho⟩
    · exact .inl (part_free ho)
    · obtain ⟨data, n, hk⟩ := hI.owner ho
      exact .inr ⟨k, data, n, ho, hk, part_inside ho hk⟩
  · exact h'.invariant (I := fun t => s.finished <+: t.finished) (fun hI _ hst => hI.trans (finished_step hst))
      List.prefix_rfl

/-- Two threads and the heartbeat; the third call fails inside its frame. -/
def threads : List WriteAct :=
  [.sendData (ascii "ab"), .heartbeat, .sendData (ascii "cd"), .enter 1, .take 1 9, .take 1 8, .leave 1, .enter 0,
    .take 0 3, .take 0 7, .leave 0, .enter 2, .take 2 4, .fail 2 ⟨"Broken pipe"⟩]

theorem writes_serialise_threads : ∃ s : Writers, system.Runs (fun _ _ => True) (start []) threads s ∧
    s.finished.map (·.call) = [1, 0, 2] ∧ s.out = serial [] s.finished ++ s.part ∧
      s.out = frame KnotLink.heartbeat ++ frame (ascii "ab") ++ MAGIC := by
  obtain ⟨s, hrun, hcalls, hout⟩ := system.exists_run (fun _ _ => True) (start []) threads
    (fun s => s.finished.map (·.call) = [1, 0, 2] ∧ s.out = frame KnotLink.heartbeat ++ frame (ascii "ab") ++ MAGIC)
    (by decide +kernel)
  exact ⟨s, hrun, hcalls, (writes_serialise hrun .nil).1.1, hout⟩

/-! ## What the peer reads -/

theorem result_ok {d : Finished} : d.result = .ok () ↔ d.data.length ≤ MAX_MSG_SIZE ∧ d.write = .ok := by
  unfold Finished.result
  by_cases hlen : d.data.length ≤ MAX_MSG_SIZE
  · cases d.write <;> simp [Writer.writeWithLengthPrefix, Nat.not_lt.2 hlen, hlen]
  · simp [write_tooLarge (Nat.lt_of_not_le hlen), hlen]

theorem payload?_eq_some {d : Finished} {m : Bytes} :
    d.payload? = some m ↔ d.data = m ∧ d.data.length ≤ MAX_MSG_SIZE ∧ d.write = .ok := by
  rw [← result_ok, Finished.payload?]
  cases d.result <;> simp

theorem payload?_eq_none {d : Finished} (h : ¬ (d.data.length ≤ MAX_MSG_SIZE ∧ d.write = .ok)) :
    d.payload? = none := by
  rw [Option.eq_none_iff_forall_ne_some]
  intro m hm
  exact h (payload?_eq_some.1 hm).2

/-- Calls that write their frames whole or not at all leave the frames of those that have returned. -/
theorem serial_whole {ds : List Finished} (h : ∀ d ∈ ds, d.Whole) :
    serial base ds = base ++ wire.encodeAll (ds.filterMap Finished.payload?) := by
  induction ds using List.reverseRecOn with
  | nil => simp [serial]
  | append_singleton ds d ih =>
    have hd : d.Whole := h d (by simp)
    have hpre := ih fun d hd => h d (List.mem_append_left _ hd)
    rw [serial_concat, hpre, List.filterMap_append, Codec.encodeAll_append]
    by_cases hlen : d.data.length ≤ MAX_MSG_SIZE
    · rw [write_taken hlen]
      cases hw : d.write with
      | ok =>
        have hpay : d.payload? = some d.data := payload?_eq_some.2 ⟨rfl, hlen, hw⟩
        simp [hpay, Write.taken]
      | fails n e =>
        have hn : n = 0 := by simpa [Finished.Whole, hw] using hd
        have hpay : d.payload? = none := payload?_eq_none (by simp [hw])
        simp [hpay, Write.taken, hn]
    · have hpay : d.payload? = none := payload?_eq_none fun hok => hlen hok.1
      rw [write_tooLarge (Nat.lt_of_not_le hlen)]
      simp [hpay]

/-- **What is sent by many threads is received**: when no call is inside, none has failed inside its frame and none was
for an empty message, a reader of the stream, however it is cut, gets the data of exactly the calls that have returned,
heartbeats included, in the order in which they left the monitor, and goes on reading. -/
theorem sent_received {as : List WriteAct} (h : system.Runs (fun _ _ => True) (start []) as s) (hfree : s.owner = none)
    (hwhole : ∀ d ∈ s.finished, d.Whole) (hne : ∀ d ∈ s.finished, d.data ≠ []) {chunks : List Bytes}
    (hcut : chunks.flatten = s.out) :
    let reader := TcpClient.readChunks quiet .connected chunks
    reader.delivered = (s.finished.filterMap Finished.payload?).filter isMessage ∧ reader.reading = true ∧
      reader.buffer.contents = [] := by
  intro reader
  have hI : Serial [] s := h.invariant (fun hI _ hst => serial_step hI hst) (serial_start [])
  have hout : chunks.flatten = wire.encodeAll (s.finished.filterMap Finished.payload?) := by
    rw [hcut, hI.out, part_free hfree, List.append_nil, serial_whole hwhole, List.nil_append]
  have hok : ∀ m ∈ s.finished.filterMap Finished.payload?, Admissible m := by
    intro m hm
    obtain ⟨d, hd, hpay⟩ := List.mem_filterMap.1 hm
    obtain ⟨rfl, hlen, -⟩ := payload?_eq_some.1 hpay
    exact ⟨List.length_pos_iff.2 (hne d hd), hlen⟩
  have h0 : TcpClient.view.Follows [] .connected ⟨[], [], true⟩ :=
    ⟨rfl, fun _ => ByteBuffer.contents_empty, rfl⟩
  obtain ⟨hup, hbuf, hdel⟩ := (TcpClient.readChunks_follows h0 chunks).frames hok hout
  exact ⟨hdel.trans (List.nil_append _), hup, hbuf⟩

/-- Three threads, one of them with a dead socket at once. -/
def deadSocket : List WriteAct :=
  [.sendData (ascii "ab"), .heartbeat, .sendData (ascii "cd"), .enter 1, .take 1 17, .leave 1, .enter 0, .take 0 4,
    .take 0 6, .leave 0, .disconnect, .enter 2, .fail 2 ⟨"Socket closed"⟩]

/-- The cut goes through both frames. -/
theorem sent_received_threads : ∃ s : Writers, system.Runs (fun _ _ => True) (start []) deadSocket s ∧
    s.finished.length = 3 ∧ s.owner = none ∧ (∀ d ∈ s.finished, d.Whole) ∧ (∀ d ∈ s.finished, d.data ≠ []) ∧
    (TcpClient.readChunks quiet .connected [s.out.take 11, s.out.drop 11]).delivered =
      [KnotLink.heartbeat, ascii "ab"] := by
  obtain ⟨s, hrun, hlen, hpay, hfree, hwhole, hne⟩ := system.exists_run (fun _ _ => True) (start []) deadSocket
    (fun s => s.finished.length = 3 ∧
      (s.finished.filterMap Finished.payload?).filter isMessage = [KnotLink.heartbeat, ascii "ab"] ∧ s.owner = none ∧
      (∀ d ∈ s.finished, d.Whole) ∧ ∀ d ∈ s.finished, d.data ≠ []) (by decide +kernel)
  have hcut : [s.out.take 11, s.out.drop 11].flatten = s.out := by simp
  exact ⟨s, hrun, hlen, hfree, hwhole, hne, (sent_received hrun hfree hwhole hne hcut).1.trans hpay⟩

end Writers
end KnotLink.Java
