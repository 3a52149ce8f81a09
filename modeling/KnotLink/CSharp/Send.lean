import KnotLink.Frame
import KnotLink.Lib.Channel
/-!
# C# `KlTcpClient.SendAsync` (TcpClient.cs:62-91)

Any number of calls of `SendAsync`, each with its own token, and the heartbeat loop write to one stream. A
call takes `_sendLock`, writes magic, length and payload by three `WriteAsync` and flushes; a cancelled
token makes the next of these throw, and `finally` releases the lock.

The lock keeps frames apart, but a call cut off between two of its writes leaves a torn frame and a client
that is still usable. What is written is whole frames and at most one torn one behind which nothing is
written, in every run in which no call writes its magic behind a torn frame (`whole_or_silent`).
-/
namespace KnotLink.CSharp
open Lib

/-- The awaits of `SendAsync`. -/
inductive Stage where
  | lock
  | magic
  | length
  | payload
  | flush
  deriving DecidableEq, Repr

/-- Where a call stands. -/
inductive SendPc where
  /-- Before this await. -/
  | awaits (stage : Stage)
  | sent
  /-- `OperationCanceledException` out of this await. -/
  | cancelled (stage : Stage)
  /-- `ArgumentException`. -/
  | tooLarge (text : String)
  deriving DecidableEq, Repr

structure SendCall where
  /-- `Encoding.UTF8.GetBytes(data)`. -/
  payload : Bytes
  /-- The token is cancelled. -/
  cancelled : Bool
  pc : SendPc
  deriving DecidableEq, Repr

structure Senders where
  /-- The bytes written to `_stream`. -/
  stream : Bytes
  /-- `_sendLock.CurrentCount`. -/
  sendLock : Nat
  calls : List SendCall
  /-- The heartbeat loop's last call; its token is `_cts.Token`. -/
  beat : Option Nat
  deriving DecidableEq, Repr

inductive SendAct where
  | sendAsync (payload : Bytes)
  | heartbeat
  | cancel (k : Nat)
  /-- The next await of call `k` completes or throws. -/
  | resume (k : Nat)
  deriving DecidableEq, Repr

/-- What the `WriteAsync` of a stage writes. -/
def Stage.bytes (payload : Bytes) : Stage → Bytes
  | .magic => MAGIC
  | .length => toBE 4 payload.length
  | .payload => payload
  | .lock | .flush => []

/-- The await that follows. -/
def Stage.next : Stage → Stage
  | .lock => .magic
  | .magic => .length
  | .length => .payload
  | .payload | .flush => .flush

/-- How much of its frame a call has written before an await. -/
def Stage.written (payload : Bytes) : Stage → Nat
  | .lock | .magic => 0
  | .length => MAGIC_LEN
  | .payload => HEADER_LEN
  | .flush => HEADER_LEN + payload.length

namespace SendCall

/-- A new call up to its first await (TcpClient.cs:64-76). -/
def enter (payload : Bytes) : SendCall where
  payload
  cancelled := false
  pc :=
    if payload.length > MAX_MSG_SIZE then .tooLarge s!"Message too large: {payload.length} > {MAX_MSG_SIZE}"
    else .awaits .lock

def written (c : SendCall) : Nat :=
  match c.pc with
  | .awaits stage | .cancelled stage => stage.written c.payload
  | .sent => HEADER_LEN + c.payload.length
  | .tooLarge _ => 0

/-- The call as a writer of the channel. -/
def writer (c : SendCall) : Bytes × Nat := (c.payload, c.written)

/-- The call is between `WaitAsync` and `Release`. -/
def holds (c : SendCall) : Bool :=
  match c.pc with
  | .awaits .magic | .awaits .length | .awaits .payload | .awaits .flush => true
  | _ => false

/-- The call was cut off with some of its frame written and some not. -/
def torn (c : SendCall) : Bool :=
  match c.pc with
  | .cancelled _ => wire.Partway c.writer
  | _ => false

/-- The call is over. -/
def isOver (c : SendCall) : Bool :=
  match c.pc with
  | .awaits _ => false
  | _ => true

end SendCall

namespace Senders

/-- The call throws: `finally` releases the lock. -/
def cut (s : Senders) (k : Nat) (c : SendCall) (stage : Stage) : Senders :=
  { s with sendLock := s.sendLock + 1, calls := s.calls.set k { c with pc := .cancelled stage } }

/-- One await of call `k`, which is `c` and stands before `stage`. -/
def resume (s : Senders) (k : Nat) (c : SendCall) (stage : Stage) : Option Senders :=
  match stage with
  | .lock =>
    if c.cancelled then some { s with calls := s.calls.set k { c with pc := .cancelled .lock } }
    else match s.sendLock with
      | 0 => none
      | n + 1 => some { s with sendLock := n, calls := s.calls.set k { c with pc := .awaits .magic } }
  | .magic | .length | .payload =>
    if c.cancelled then some (s.cut k c stage)
    else some { s with
      stream := s.stream ++ stage.bytes c.payload
      calls := s.calls.set k { c with pc := .awaits stage.next } }
  | .flush =>
    if c.cancelled then some (s.cut k c stage)
    else some { s with sendLock := s.sendLock + 1, calls := s.calls.set k { c with pc := .sent } }

def step (s : Senders) : SendAct → Option Senders
  | .sendAsync payload => some { s with calls := s.calls ++ [.enter payload] }
  | .heartbeat =>
    -- the loop awaits its `SendAsync`
    if (s.beat.bind fun k => s.calls[k]?).all SendCall.isOver then
      some { s with calls := s.calls ++ [.enter KnotLink.heartbeat], beat := some s.calls.length }
    else none
  | .cancel k =>
    match s.calls[k]? with
    | some c => if s.beat = some k then none else some { s with calls := s.calls.set k { c with cancelled := true } }
    | none => none
  | .resume k =>
    match s.calls[k]? with
    | some c =>
      match c.pc with
      | .awaits stage => s.resume k c stage
      | _ => none
    | none => none

def system : System Senders SendAct := ⟨step⟩

/-- A connected client that has sent nothing. -/
def start : Senders := ⟨[], 1, [], none⟩

/-- A call writes its magic only while no frame is torn. -/
def Untorn (s : Senders) : SendAct → Prop
  | .resume k =>
    match s.calls[k]? with
    | some c => c.pc = .awaits .magic → c.cancelled = false → ∀ d ∈ s.calls, d.torn = false
    | none => True
  | _ => True

instance (s : Senders) (a : SendAct) : Decidable (Untorn s a) := by
  unfold Untorn
  split
  · split <;> infer_instance
  · infer_instance

/-! ## What a step can do -/

/-- The ways a step can go. -/
inductive Step (s : Senders) : SendAct → Senders → Prop where
  | joined {payload : Bytes} : Step s (.sendAsync payload) { s with calls := s.calls ++ [.enter payload] }
  | beat (hbeat : (s.beat.bind fun k => s.calls[k]?).all SendCall.isOver = true) : Step s .heartbeat
      { s with calls := s.calls ++ [.enter KnotLink.heartbeat], beat := some s.calls.length }
  | cancelled {k : Nat} {c : SendCall} (hk : s.calls[k]? = some c) (hbeat : s.beat ≠ some k) : Step s (.cancel k)
      { s with calls := s.calls.set k { c with cancelled := true } }
  | refused {k : Nat} {c : SendCall} (hk : s.calls[k]? = some c) (hpc : c.pc = .awaits .lock)
      (hc : c.cancelled = true) : Step s (.resume k)
      { s with calls := s.calls.set k { c with pc := .cancelled .lock } }
  | acquired {k n : Nat} {c : SendCall} (hk : s.calls[k]? = some c) (hpc : c.pc = .awaits .lock)
      (hn : s.sendLock = n + 1) : Step s (.resume k)
      { s with sendLock := n, calls := s.calls.set k { c with pc := .awaits .magic } }
  | cut {k : Nat} {c : SendCall} {stage : Stage} (hk : s.calls[k]? = some c) (hpc : c.pc = .awaits stage)
      (hstage : stage ≠ .lock) (hc : c.cancelled = true) : Step s (.resume k) (s.cut k c stage)
  | wrote {k : Nat} {c : SendCall} {stage : Stage} (hk : s.calls[k]? = some c) (hpc : c.pc = .awaits stage)
      (hstage : stage = .magic ∨ stage = .length ∨ stage = .payload) (hc : c.cancelled = false) :
      Step s (.resume k) { s with
        stream := s.stream ++ stage.bytes c.payload
        calls := s.calls.set k { c with pc := .awaits stage.next } }
  | sent {k : Nat} {c : SendCall} (hk : s.calls[k]? = some c) (hpc : c.pc = .awaits .flush) :
      Step s (.resume k) { s with sendLock := s.sendLock + 1, calls := s.calls.set k { c with pc := .sent } }

theorem resume_cases {s u : Senders} {k : Nat} {c : SendCall} {stage : Stage} (hk : s.calls[k]? = some c)
    (hpc : c.pc = .awaits stage) (h : s.resume k c stage = some u) : Step s (.resume k) u := by
  cases stage with
  | lock =>
    simp only [resume] at h
    split at h
    · cases h
      exact .refused hk hpc ‹_›
    · split at h
      · cases h
      · cases h
        exact .acquired hk hpc ‹_›
  | magic | length | payload =>
    simp only [resume] at h
    split at h <;> cases h
    · exact .cut hk hpc nofun ‹_›
    · exact .wrote hk hpc (by simp) (Bool.not_eq_true _ ▸ ‹_›)
  | flush =>
    simp only [resume] at h
    split at h <;> cases h
    · exact .cut hk hpc nofun ‹_›
    · exact .sent hk hpc

theorem step_cases {s u : Senders} {a : SendAct} (h : step s a = some u) : Step s a u := by
  cases a with
  | sendAsync payload =>
    cases h
    exact .joined
  | heartbeat =>
    simp only [step] at h
    split at h <;> cases h
    exact .beat ‹_›
  | cancel k =>
    simp only [step] at h
    split at h
    · split at h <;> cases h
      exact .cancelled ‹_› ‹_›
    · cases h
  | resume k =>
    simp only [step] at h
    split at h
    · rename_i hk
      split at h
      · exact resume_cases hk ‹_› h
      · cases h
    · cases h

end Senders

/-! ## A call's frame -/

theorem slice_written {payload : Bytes} {stage : Stage} (h : stage = .magic ∨ stage = .length ∨ stage = .payload) :
    slice (frame payload) (stage.written payload) (stage.next.written payload) = stage.bytes payload := by
  rcases h with rfl | rfl | rfl
  · rfl
  · exact slice_append_append MAGIC _ _ rfl (by simp [Stage.written, Stage.next, HEADER_LEN])
  · have := slice_append_append (MAGIC ++ toBE 4 payload.length) payload [] (i := HEADER_LEN)
      (j := HEADER_LEN + payload.length) (by simp [HEADER_LEN, MAGIC_LEN]) rfl
    rwa [List.append_nil] at this

theorem written_next (payload : Bytes) (stage : Stage) : stage.written payload ≤ stage.next.written payload := by
  cases stage <;> simp [Stage.written, Stage.next, HEADER_LEN]

theorem next_written_le (payload : Bytes) (stage : Stage) :
    stage.next.written payload ≤ (wire.encode payload).length := by
  rw [wire_encode, length_frame]
  cases stage <;> simp only [Stage.written, Stage.next, HEADER_LEN, MAGIC_LEN] <;> omega

namespace SendCall

theorem enter_cases (payload : Bytes) :
    enter payload = ⟨payload, false, .awaits .lock⟩ ∨ ∃ text, enter payload = ⟨payload, false, .tooLarge text⟩ := by
  unfold enter
  split
  · exact .inr ⟨_, rfl⟩
  · exact .inl rfl

/-- A new call has written nothing and does not hold the lock. -/
theorem enter_new (payload : Bytes) : (enter payload).writer = (payload, 0) ∧ (enter payload).holds = false := by
  rcases enter_cases payload with h | ⟨text, h⟩ <;> rw [h] <;> exact ⟨rfl, rfl⟩

/-- A call that is part-way is at one of its writes or was cut off there. -/
theorem holds_or_torn {c : SendCall} (h : wire.Partway c.writer) : c.holds = true ∨ c.torn = true := by
  rcases c with ⟨payload, cancelled, pc⟩
  cases pc with
  | awaits stage =>
    cases stage with
    | lock => exact absurd rfl h.1
    | magic | length | payload | flush => exact .inl rfl
  | sent =>
    refine absurd h.2 ?_
    simp [writer, written]
  | cancelled stage => exact .inr (decide_eq_true h)
  | tooLarge text => exact absurd rfl h.1

/-- From the second await on a call holds the lock. -/
theorem holds_of_awaits {c : SendCall} {stage : Stage} (hpc : c.pc = .awaits stage) (h : stage ≠ .lock) :
    c.holds = true := by
  cases stage <;> simp_all [holds]

theorem torn_iff {c : SendCall} : c.torn = true ↔ (∃ stage, c.pc = .cancelled stage) ∧ wire.Partway c.writer := by
  rcases c with ⟨payload, cancelled, pc⟩
  cases pc <;> simp [torn]

end SendCall
end KnotLink.CSharp
