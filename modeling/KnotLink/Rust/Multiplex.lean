import KnotLink.Lib.Run
import KnotLink.Rust.TcpClient
/-!
# Rust `TcpClient::run` (tcp_client.rs:46-123)

A turn of the loop takes whichever branch of `select!` is ready: a queued message, a tick of the heartbeat timer or a
read. A branch that is not chosen takes nothing from its source, and the two that send are over when `write_all` has
written their packet, piece by piece. A branch whose pattern does not match (`recv` on a closed and empty channel) is
switched off for that turn.

However the branches come, the stream is whole packets with the queued messages in order among heartbeats, and the
read side is what it would be alone (`frames_and_messages`).
-/
namespace KnotLink.Rust
open Lib

structure Loop where
  rx : List Bytes
  /-- What `write_all` has still to write. -/
  writing : Bytes
  /-- The bytes written. -/
  stream : Bytes
  /-- `read_buf`, the calls of `on_data` and what `run` has returned. -/
  read : Run
  /-- `read_buf` has failed, and `run` has returned its error. -/
  readFailed : Bool
  /-- The messages that went into the channel. -/
  queued : List Bytes
  /-- The bytes read. -/
  received : Bytes

inductive LoopAct where
  /-- Another task's `tx.send`. -/
  | queue (data : Bytes)
  | recv
  | tick
  /-- `write_all` gets so many bytes written. -/
  | wrote (n : Nat)
  /-- `read_buf` appends a chunk; none is the peer's close. -/
  | read (chunk : Bytes)
  | readError
  deriving DecidableEq, Repr

/-- The chunk a step reads. -/
def LoopAct.chunk? : LoopAct → Option Bytes
  | .read chunk => some chunk
  | _ => none

namespace Loop

/-- `run` on a fresh connection. -/
def start : Loop := ⟨[], [], [], .start, false, [], []⟩

def running (s : Loop) : Bool := s.read.result.isNone && !s.readFailed

/-- The loop is at `select!`. -/
def selects (s : Loop) : Bool := s.running && s.writing.isEmpty

def step (s : Loop) : LoopAct → Option Loop
  | .queue data => if s.running then some { s with rx := s.rx ++ [data], queued := s.queued ++ [data] } else none
  | .recv =>
    match s.selects, s.rx with
    | true, data :: rest => some { s with rx := rest, writing := packMessage data }
    | _, _ => none
  | .tick => if s.selects then some { s with writing := packMessage heartbeat } else none
  | .wrote n =>
    if s.running ∧ 0 < n ∧ n ≤ s.writing.length then
      some { s with writing := s.writing.drop n, stream := s.stream ++ s.writing.take n }
    else none
  | .read chunk =>
    if s.selects then some { s with read := s.read.onRead chunk, received := s.received ++ chunk } else none
  | .readError => if s.selects then some { s with readFailed := true } else none

def system : System Loop LoopAct := ⟨step⟩

/-- The ways a step can go. -/
inductive Step (s : Loop) : LoopAct → Loop → Prop where
  | queue {data : Bytes} : Step s (.queue data) { s with rx := s.rx ++ [data], queued := s.queued ++ [data] }
  | recv {data : Bytes} {rest : List Bytes} (hw : s.writing = []) (hrx : s.rx = data :: rest) :
      Step s .recv { s with rx := rest, writing := packMessage data }
  | tick (hw : s.writing = []) : Step s .tick { s with writing := packMessage heartbeat }
  | wrote {n : Nat} : Step s (.wrote n) { s with writing := s.writing.drop n, stream := s.stream ++ s.writing.take n }
  | read {chunk : Bytes} (hrun : s.read.result = none) :
      Step s (.read chunk) { s with read := s.read.onRead chunk, received := s.received ++ chunk }
  | readError : Step s .readError { s with readFailed := true }

theorem writing_of_selects {s : Loop} (h : s.selects = true) : s.writing = [] := by
  simp only [selects, Bool.and_eq_true, List.isEmpty_iff] at h
  exact h.2

theorem result_of_selects {s : Loop} (h : s.selects = true) : s.read.result = none := by
  simp only [selects, running, Bool.and_eq_true, Option.isNone_iff_eq_none] at h
  exact h.1.1

theorem step_cases {s u : Loop} {a : LoopAct} (h : step s a = some u) : Step s a u := by
  cases a with
  | queue data =>
    simp only [step] at h
    split at h <;> cases h
    exact .queue
  | recv =>
    simp only [step] at h
    split at h
    · rename_i hsel hrx
      cases h
      exact .recv (writing_of_selects hsel) hrx
    · cases h
  | tick =>
    simp only [step] at h
    split at h
    · rename_i hsel
      cases h
      exact .tick (writing_of_selects hsel)
    · cases h
  | wrote n =>
    simp only [step] at h
    split at h <;> cases h
    exact .wrote
  | read chunk =>
    simp only [step] at h
    split at h
    · rename_i hsel
      cases h
      exact .read (result_of_selects hsel)
    · cases h
  | readError =>
    simp only [step] at h
    split at h <;> cases h
    exact .readError

/-! ## The sending branches -/

/-- What a sending branch packs. -/
inductive Packed where
  | message (data : Bytes)
  | heartbeat
  deriving DecidableEq, Repr

def Packed.data : Packed → Bytes
  | .message data => data
  | .heartbeat => KnotLink.heartbeat

def Packed.message? : Packed → Option Bytes
  | .message data => some data
  | .heartbeat => none

/-- The packets one after another. -/
def packets (sent : List Packed) : Bytes := (sent.map (·.data)).flatMap packMessage

theorem packets_concat (sent : List Packed) (p : Packed) : packets (sent ++ [p]) = packets sent ++ packMessage p.data := by
  simp [packets]

/-- `sent` is what the branches have packed so far: all of it is written but the rest of the last packet, and its
messages are the queued ones that are no more in the channel. -/
structure Sent (s : Loop) (sent : List Packed) : Prop where
  stream : s.stream ++ s.writing = packets sent
  rest : s.writing = [] ∨ ∃ p, sent.getLast? = some p ∧ s.writing <:+ packMessage p.data
  messages : sent.filterMap Packed.message? ++ s.rx = s.queued

theorem Sent.pack {s : Loop} {sent : List Packed} (h : Sent s sent) (hw : s.writing = []) (p : Packed) {rx : List Bytes}
    (hrx : [p].filterMap Packed.message? ++ rx = s.rx) :
    Sent { s with rx, writing := packMessage p.data } (sent ++ [p]) := by
  refine ⟨?_, .inr ⟨p, by simp, List.suffix_rfl⟩, ?_⟩
  · have hs := h.stream
    rw [hw, List.append_nil] at hs
    rw [packets_concat, ← hs]
  · rw [List.filterMap_append, List.append_assoc, hrx]
    exact h.messages

theorem sent_step {s u : Loop} {a : LoopAct} (hI : ∃ sent, Sent s sent) (h : step s a = some u) :
    ∃ sent, Sent u sent := by
  obtain ⟨sent, hS⟩ := hI
  cases step_cases h with
  | queue => exact ⟨sent, hS.stream, hS.rest, by rw [← hS.messages, List.append_assoc]⟩
  | @recv data rest hw hrx => exact ⟨_, hS.pack hw (.message data) (by rw [hrx]; rfl)⟩
  | tick hw => exact ⟨_, hS.pack hw .heartbeat rfl⟩
  | @wrote n =>
    refine ⟨sent, ?_, ?_, hS.messages⟩
    · rw [List.append_assoc, List.take_append_drop]
      exact hS.stream
    · rcases hS.rest with hnil | ⟨p, hp, hsuf⟩
      · simp [hnil]
      · exact .inr ⟨p, hp, (List.drop_suffix n s.writing).trans hsuf⟩
  | read | readError => exact ⟨sent, hS.stream, hS.rest, hS.messages⟩

/-! ## The reading branch -/

/-- The read side is what it is without the sending branches. -/
theorem read_run {s t : Loop} {as : List LoopAct} (h : system.Runs (fun _ _ => True) s as t) :
    t.read = Run.readChunks s.read (as.filterMap LoopAct.chunk?) := by
  induction h with
  | nil => rfl
  | @cons s u t a as _ hstep _ ih =>
    rw [ih]
    cases step_cases hstep <;> simp [List.filterMap_cons, LoopAct.chunk?, Run.readChunks]

/-- The chunks read so far, the peer's close left out. -/
theorem onData_step {s u : Loop} {a : LoopAct}
    (hI : ∃ chunks : List Bytes, (∀ c ∈ chunks, c ≠ []) ∧ s.received = chunks.flatten ∧
      s.read.onData = (Run.readChunks .start chunks).onData ∧
      (s.read.result = none → s.read = Run.readChunks .start chunks)) (h : step s a = some u) :
    ∃ chunks : List Bytes, (∀ c ∈ chunks, c ≠ []) ∧ u.received = chunks.flatten ∧
      u.read.onData = (Run.readChunks .start chunks).onData ∧
      (u.read.result = none → u.read = Run.readChunks .start chunks) := by
  cases step_cases h with
  | queue | recv | tick | wrote | readError => exact hI
  | @read chunk hrun =>
    obtain ⟨chunks, hne, hrec, hdata, hread⟩ := hI
    by_cases hc : chunk = []
    · subst hc
      have hclosed : s.read.onRead [] = { s.read with result := some (.ok ()) } := by simp [Run.onRead, hrun]
      exact ⟨chunks, hne, by simpa using hrec, by simpa [hclosed] using hdata, by simp [hclosed]⟩
    · have hnext : Run.readChunks .start (chunks ++ [chunk]) = s.read.onRead chunk := by
        rw [hread hrun, Run.readChunks, List.foldl_append]
        rfl
      refine ⟨chunks ++ [chunk], ?_, by simp [hrec], by rw [hnext], fun _ => hnext.symm⟩
      intro c hmem
      rcases List.mem_append.1 hmem with hmem | hmem
      · exact hne c hmem
      · rwa [List.mem_singleton.1 hmem]

theorem onData_messages {s : Loop} {as : List LoopAct} (h : system.Runs (fun _ _ => True) start as s) :
    s.read.onData = messages s.received := by
  obtain ⟨chunks, hne, hrec, hdata, -⟩ := h.invariant (fun hI _ hstep => onData_step hI hstep)
    ⟨[], by simp, rfl, rfl, fun _ => rfl⟩
  have h0 : Run.view.Follows [] .start ⟨[], [], true⟩ := ⟨rfl, fun _ => rfl, rfl⟩
  have hfollows := (Run.readChunks_follows h0 hne).delivered
  rw [hdata, hrec]
  exact hfollows.trans (feedAll_messages (by simp [wireFront, HEADER_LEN]) chunks)

/-- **Whole packets, and the messages received**, for every order of the branches: the bytes written, with the rest
of the packet that `write_all` is at, are whole packets, among them the messages that were queued and are no more in
the channel, each once and in order, and heartbeats; `on_data` was called with the messages of the bytes read, and
the read side is what it is without the sending branches. -/
theorem frames_and_messages {as : List LoopAct} {s : Loop} (h : system.Runs (fun _ _ => True) start as s) :
    (∃ sent, Sent s sent) ∧ s.read.onData = messages s.received ∧
      s.read = Run.readChunks .start (as.filterMap LoopAct.chunk?) := by
  refine ⟨?_, onData_messages h, read_run h⟩
  exact h.invariant (I := fun s => ∃ sent, Sent s sent) (fun hI _ hstep => sent_step hI hstep)
    ⟨[], rfl, .inl rfl, rfl⟩

/-- A message, a heartbeat written in two pieces, and an answer that comes in two chunks around it. -/
def interleaved : List LoopAct :=
  [.queue (ascii "ab"), .tick, .wrote 5, .queue (ascii "cd"), .wrote 12, .read ((frame (ascii "ok")).take 9), .recv,
    .wrote 10, .read ((frame (ascii "ok")).drop 9), .recv, .wrote 4]

theorem frames_and_messages_interleaved : ∃ s : Loop, system.Runs (fun _ _ => True) start interleaved s ∧
    s.writing = (frame (ascii "cd")).drop 4 ∧ (∃ sent, Sent s sent) ∧ s.read.onData = messages s.received := by
  obtain ⟨s, hrun, hw⟩ := system.exists_run (fun _ _ => True) start interleaved
    (fun s => s.writing = (frame (ascii "cd")).drop 4) (by decide +kernel)
  have h := frames_and_messages hrun
  exact ⟨s, hrun, hw, h.1, h.2.1⟩

end Loop
end KnotLink.Rust
