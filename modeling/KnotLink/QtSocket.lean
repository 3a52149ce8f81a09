import KnotLink.Receiver
/-!
# The clients over a `QTcpSocket` (tcpclient.cpp, tcpclient.py)

The Qt client and the PyQt client keep one `buffer` for all their connections and parse it the same way, up to
how they add a length to `HEADER_LEN`. Slots connected to `receivedData` run inside `processBuffer`, at each
emission: `emit` is what they do to their own state `slots`.
-/
namespace KnotLink.QtSocket
open Lib

structure TcpClient (κ : Type) where
  /-- `tcpSocket` is in `ConnectedState`. -/
  connected : Bool
  buffer : Bytes
  /-- What was written to `tcpSocket`. -/
  written : List Bytes
  slots : κ
  deriving DecidableEq, Repr

/-- Where a frame ends in the arithmetic of a client, which is right for the lengths it accepts. -/
structure FrameEnd where
  of : Nat → Int
  exact : ∀ len ≤ MAX_MSG_SIZE, of len = HEADER_LEN + len

namespace TcpClient
variable {κ : Type} (e : FrameEnd) (emit : κ → Bytes → κ)

/-- A new client. -/
def new (slots : κ) : TcpClient κ := ⟨false, [], [], slots⟩

/-- `tcpSocket->disconnectFromHost()`. No `readyRead` comes behind it. -/
def disconnectFromHost (s : TcpClient κ) : TcpClient κ := { s with connected := false }

/-- The peer closes; `socketDisconnected` stops the timer and leaves the buffer (tcpclient.cpp:47-50,
tcpclient.py:42-44). -/
def peerCloses (s : TcpClient κ) : TcpClient κ := { s with connected := false }

/-- The body of the `while (true)` of `processBuffer` (tcpclient.cpp:89-121, tcpclient.py:85-115). -/
def processTurn (s : TcpClient κ) : Turn (TcpClient κ) (TcpClient κ) :=
  if s.buffer.length < HEADER_LEN then .leave s
  else if s.buffer.take MAGIC_LEN ≠ MAGIC then .leave s.disconnectFromHost
  else
    let len := ofBE (slice s.buffer MAGIC_LEN HEADER_LEN)
    if len = 0 ∨ len > MAX_MSG_SIZE then .leave s.disconnectFromHost
    else if s.buffer.length < e.of len then .leave s
    else
      let msg := slice s.buffer HEADER_LEN (HEADER_LEN + len)
      let s := { s with buffer := s.buffer.drop (HEADER_LEN + len) }
      if msg = heartbeatResponse then .again s else .again { s with slots := emit s.slots msg }

/-- One turn, told by the front of the buffer. -/
theorem processTurn_front (s : TcpClient κ) :
    processTurn e emit s = match wireFront s.buffer with
      | .short => .leave s
      | .bad => .leave s.disconnectFromHost
      | .frame m r => .again { s with buffer := r, slots := ([m].filter isMessage).foldl emit s.slots } := by
  have hend : lengthField s.buffer ≤ MAX_MSG_SIZE →
      ((s.buffer.length : Int) < e.of (lengthField s.buffer) ↔ s.buffer.length < HEADER_LEN + lengthField s.buffer) := by
    intro hl
    rw [e.exact _ hl]
    omega
  have hfront := parse_front s.buffer hend (.leave s) (.leave s.disconnectFromHost) fun m r =>
    if m = heartbeatResponse then Turn.again { s with buffer := r }
    else .again { s with buffer := r, slots := emit s.slots m }
  refine (show processTurn e emit s = _ from rfl).trans (hfront.trans ?_)
  cases wireFront s.buffer with
  | short | bad => rfl
  | frame m r =>
    by_cases hm : m = heartbeatResponse <;> simp [filter_isMessage_singleton, hm]

/-- `processBuffer`. -/
def processBuffer : Body (TcpClient κ) (TcpClient κ) where
  turn := processTurn e emit
  measure s := s.buffer.length
  decreases {s s'} h := by
    rw [processTurn_front] at h
    cases hf : wireFront s.buffer with
    | short => rw [hf] at h; cases h
    | bad => rw [hf] at h; cases h
    | frame m r =>
      rw [hf] at h
      cases h
      exact wire.front_frame_length hf

/-- `readData` (tcpclient.cpp:77-82, tcpclient.py:73-79) on what `readAll` returns. -/
def readData (s : TcpClient κ) (newData : Bytes) : TcpClient κ :=
  if newData = [] then s else (processBuffer e emit).run { s with buffer := s.buffer ++ newData }

/-- `readyRead` once per chunk; a socket that is not connected emits none. -/
def readyRead (s : TcpClient κ) (newData : Bytes) : TcpClient κ :=
  if s.connected then readData e emit s newData else s

/-- Slots that keep what they get. -/
def record (ms : List Bytes) (m : Bytes) : List Bytes := ms ++ [m]

theorem foldl_record (ms ns : List Bytes) : ns.foldl record ms = ms ++ ns := by
  induction ns generalizing ms with
  | nil => exact (List.append_nil ms).symm
  | cons n ns ih => rw [List.foldl_cons, ih, record, List.append_assoc, List.singleton_append]

def view : View (TcpClient (List Bytes)) := ⟨connected, buffer, slots, isMessage⟩

theorem processBuffer_parses : view.Parses (processBuffer e record) (fun r s => r = s) where
  short {s} hs hf := by
    have ht := processTurn_front e record s
    rw [show wireFront s.buffer = .short from hf] at ht
    exact ⟨_, s, ht, rfl, hs, rfl, rfl⟩
  bad {s} hs hf := by
    have ht := processTurn_front e record s
    rw [show wireFront s.buffer = .bad from hf] at ht
    exact ⟨_, _, ht, rfl, rfl, rfl⟩
  frame {s m r} hs hf := by
    have ht := processTurn_front e record s
    rw [show wireFront s.buffer = .frame m r from hf] at ht
    exact ⟨_, ht, hs, rfl, foldl_record _ _⟩

/-- Chunk by chunk the client follows the codec's receiver. -/
theorem readyRead_follows {g : List Bytes} {s : TcpClient (List Bytes)} {a : Codec.Receiver UInt8 Bytes}
    (h : view.Follows g s a) {c : Bytes} (hc : c ≠ []) :
    view.Follows g (readyRead e record s c) (wire.feed a c) := by
  refine h.feed (processBuffer_parses e) (fun hd => ?_) fun hu =>
    ⟨{ s with buffer := s.buffer ++ c }, hu, rfl, rfl, fun s'' ho => ?_⟩
  · have hdown : s.connected = false := hd
    rw [readyRead, hdown, if_neg nofun]
  · have hup : s.connected = true := hu
    rw [readyRead, hup, if_pos rfl, readData, if_neg hc]
    exact ho

/-- `processBuffer` leaves no whole frame in front of the buffer. -/
theorem drained_processBuffer (s : TcpClient κ) :
    ∀ m r, wireFront ((processBuffer e emit).run s).buffer ≠ .frame m r := by
  refine (processBuffer e emit).run_rule (I := fun _ => True) (Q := fun t => ∀ m r, wireFront t.buffer ≠ .frame m r)
    (fun _ _ => trivial) (fun {s r} _ h => ?_) trivial
  have hturn : processTurn e emit s = .leave r := h
  rw [processTurn_front] at hturn
  cases hf : wireFront s.buffer with
  | short =>
    rw [hf] at hturn
    cases hturn
    simp [hf]
  | bad =>
    rw [hf] at hturn
    cases hturn
    simp [disconnectFromHost, hf]
  | frame m r' =>
    rw [hf] at hturn
    cases hturn

/-! ## Slots at each emission -/

/-- The same socket with other slots. -/
def withSlots {ι : Type} (s : TcpClient κ) (k : ι) : TcpClient ι := ⟨s.connected, s.buffer, s.written, k⟩

variable {e emit}

/-- The client's slots work on what a client that records emits. -/
def Works (emit : κ → Bytes → κ) (k : κ) (s : TcpClient κ) (t : TcpClient (List Bytes)) : Prop :=
  s = t.withSlots (t.slots.foldl emit k)

theorem works_processBuffer {k : κ} {s : TcpClient κ} {t : TcpClient (List Bytes)} (h : Works emit k s t) :
    Works emit k ((processBuffer e emit).run s) ((processBuffer e record).run t) := by
  refine Body.simulate (processBuffer e emit) (processBuffer e record) (R := Works emit k) (Q := Works emit k)
    (fun {s t} h => ?_) h
  obtain rfl : s = t.withSlots (t.slots.foldl emit k) := h
  change Body.Agree (Works emit k) (Works emit k) (processTurn e emit _) (processTurn e record t)
  rw [processTurn_front, processTurn_front]
  change Body.Agree _ _ (match wireFront t.buffer with | .short => _ | .bad => _ | .frame _ _ => _) _
  cases wireFront t.buffer with
  | short => exact .leave rfl
  | bad => exact .leave rfl
  | frame m r =>
    refine .again ?_
    rw [Works, foldl_record, List.foldl_append]
    rfl

theorem works_readyRead {k : κ} {s : TcpClient κ} {t : TcpClient (List Bytes)} (h : Works emit k s t) (c : Bytes) :
    Works emit k (s.readyRead e emit c) (t.readyRead e record c) := by
  have hconn : s.connected = t.connected := congrArg connected h
  simp only [readyRead, hconn]
  split
  · simp only [readData]
    split
    · exact h
    · refine works_processBuffer ?_
      rw [Works] at h
      rw [h]
      rfl
  · exact h

theorem works_foldl {k : κ} {s : TcpClient κ} {t : TcpClient (List Bytes)} (h : Works emit k s t) (chunks : List Bytes) :
    Works emit k (chunks.foldl (readyRead e emit) s) (chunks.foldl (readyRead e record) t) := by
  induction chunks generalizing s t with
  | nil => exact h
  | cons c cs ih => exact ih (works_readyRead h c)

/-- Chunk after chunk, the slots have worked on the application messages that were completed. -/
theorem slots_foldl {s : TcpClient κ} (hs : s.connected = true) (hb : ∀ m r, wireFront s.buffer ≠ .frame m r)
    {chunks : List Bytes} (hne : ∀ c ∈ chunks, c ≠ []) :
    (chunks.foldl (readyRead e emit) s).slots = (messages (s.buffer ++ chunks.flatten)).foldl emit s.slots := by
  have hworks : Works emit s.slots (chunks.foldl (readyRead e emit) s)
      (chunks.foldl (readyRead e record) (s.withSlots [])) :=
    works_foldl (show Works emit s.slots s (s.withSlots []) from rfl) chunks
  have h0 : view.Follows [] (s.withSlots []) ⟨s.buffer, [], true⟩ := ⟨hs, fun _ => rfl, rfl⟩
  have hfollows := wire.feedAll_follow (R := view.Follows []) (P := fun c => c ≠ [])
    (fun hc h => readyRead_follows e h hc) hne h0
  have hgot : (chunks.foldl (readyRead e record) (s.withSlots [])).slots = messages (s.buffer ++ chunks.flatten) := by
    rw [← feedAll_messages hb]
    exact hfollows.delivered
  rw [congrArg slots hworks, ← hgot]
  rfl

/-! ## A nested event loop -/

/-- The messages that the first chunks complete. -/
def completed (b : Bytes) (chunks : List Bytes) (n : Nat) : List Bytes := messages (b ++ (chunks.take n).flatten)

theorem completed_grows (b : Bytes) (chunks : List Bytes) (n : Nat) :
    completed b chunks n <+: completed b chunks (n + 1) := by
  rw [completed, completed, List.take_add_one, List.flatten_append, ← List.append_assoc]
  exact messages_grow _ _

/-- The chunk that completes the first message completes no other. -/
def Single (b : Bytes) (chunks : List Bytes) : Prop :=
  ∀ n < chunks.length, completed b chunks n = [] → (completed b chunks (n + 1)).length ≤ 1

instance (b : Bytes) (chunks : List Bytes) : Decidable (Single b chunks) :=
  inferInstanceAs (Decidable (∀ n < chunks.length, _ → _))

/-- `exec`: chunk after chunk, until slots that stop at the first message they get have stopped the loop. Then
they have worked on all messages that the chunk of the first one completes. -/
theorem exec_batch {stop : κ → Bool} {s : TcpClient κ} (hstop : ∀ ms, stop (ms.foldl emit s.slots) = true ↔ ms ≠ [])
    (hs : s.connected = true) (hb : ∀ m r, wireFront s.buffer ≠ .frame m r) {chunks : List Bytes}
    (hne : ∀ c ∈ chunks, c ≠ []) {m : Bytes} {later : List Bytes}
    (hm : messages (s.buffer ++ chunks.flatten) = m :: later) :
    ∃ more t, runUntil (readyRead e emit) (fun t => stop t.slots) s chunks = some t ∧
      t.slots = (m :: more).foldl emit s.slots ∧ (Single s.buffer chunks ↔ more = []) := by
  have hall : completed s.buffer chunks chunks.length = m :: later := by rw [completed, List.take_length, hm]
  have h0 : completed s.buffer chunks 0 = [] := by
    rw [completed, List.take_zero, List.flatten_nil, List.append_nil, messages_of_drained hb]
  have hslots : ∀ n, ((chunks.take n).foldl (readyRead e emit) s).slots =
      (completed s.buffer chunks n).foldl emit s.slots :=
    fun n => slots_foldl hs hb fun c hc => hne c (List.mem_of_mem_take hc)
  obtain ⟨n, hn, hempty, more, hmore⟩ := exists_first_batch (completed_grows s.buffer chunks) h0 hall
  refine ⟨more, _, runUntil_eq hn ?_ fun k hk => ?_, by rw [hslots, hmore], fun h => ?_, fun h => ?_⟩
  · rw [hslots, hstop, hmore]
    nofun
  · rw [hslots, hempty (k + 1) hk, ← Bool.not_eq_true, hstop]
    exact fun h => h rfl
  · have hlen := h n hn (hempty n (Nat.le_refl n))
    rw [hmore, List.length_cons] at hlen
    exact List.length_eq_zero_iff.1 (by omega)
  · intro k _ hk
    rcases Nat.lt_trichotomy k n with hlt | rfl | hlt
    · rw [hempty (k + 1) hlt]
      exact Nat.zero_le 1
    · rw [hmore, h]
      exact Nat.le_refl 1
    · have hpre := prefix_of_le (completed_grows s.buffer chunks) (Nat.succ_le_of_lt hlt)
      rw [hk, hmore] at hpre
      exact absurd (List.prefix_nil.1 hpre) nofun

end TcpClient
end KnotLink.QtSocket
