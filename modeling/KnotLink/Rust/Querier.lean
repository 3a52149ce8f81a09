import KnotLink.Lib.Slot
import KnotLink.Lib.Text
import KnotLink.Frame
/-!
# Rust `OpenSocketQuerier` (open_socket_querier.rs)

Any number of tasks call `query_l`, the client task runs `TcpClient::run` with its `on_data`. A step is one
operation on the `tx` channel, on the mutex or on a oneshot channel, or the writing of a packet. Calls of
`query_l` are numbered in the order in which they begin, and a oneshot channel has the number of its call.

`query_l` sends the request before it puts its sender into `pending_response` (open_socket_querier.rs:58-64).
`OpenSocketQuerier::new` moves `tx` into the querier and then registers through it (open_socket_querier.rs:40-47), which
the compiler refuses; the model begins behind a registration that went through a clone of `tx`.
-/
namespace KnotLink.Rust
open Lib

/-- What the receiver of a oneshot channel finds. -/
inductive Oneshot where
  /-- The sender is alive and has not sent. -/
  | open
  | sent (data : Bytes)
  /-- The sender was dropped. -/
  | closed
  deriving DecidableEq, Repr

/-- The errors of `query_l`. -/
inductive QueryError where
  /-- `self.tx.send(full)?` when the client task has ended. -/
  | sendFailed
  | timedOut (after : Nat)
  | responseChannelClosed
  | fromUtf8 (bytes : Bytes)
  deriving DecidableEq, Repr

/-- `String::from_utf8`. -/
def fromUtf8 (r : Bytes) : Except QueryError (List Char) :=
  match Utf8.decodeStrict r with
  | some text => .ok text
  | none => .error (.fromUtf8 r)

theorem fromUtf8_inj {r r' : Bytes} (h : fromUtf8 r = fromUtf8 r') : r = r' := by
  unfold fromUtf8 at h
  cases hr : Utf8.decodeStrict r <;> cases hr' : Utf8.decodeStrict r' <;> rw [hr, hr'] at h <;> cases h
  · rfl
  · rw [Utf8.decodeStrict_eq_some.1 hr, Utf8.decodeStrict_eq_some.1 hr']

/-- Where a call of `query_l` stands. -/
inductive QueryPc where
  /-- Before `self.tx.send(full)`. -/
  | begun (full : Bytes) (timeout : Option Nat)
  | sent (timeout : Option Nat)
  /-- It has put its sender into the slot and awaits the receiver. -/
  | waiting (timeout : Option Nat) (channel : Oneshot)
  | returned (result : Except QueryError (List Char))

def QueryPc.isReturned : QueryPc → Bool
  | returned _ => true
  | begun .. | sent _ | waiting .. => false

structure OpenSocketQuerier where
  pendingResponse : Option Nat
  calls : List QueryPc
  /-- Requests in the `tx` channel, each with the call that sent it. -/
  tx : List (Nat × Bytes)
  /-- The requests that `run` has written. -/
  written : List (Nat × Bytes)
  /-- The arguments of `on_data`, in order. -/
  handed : List Bytes
  /-- `TcpClient::run` has not returned. -/
  running : Bool

inductive QuerierAct where
  | call (data appId openSocketId : List Char) (timeout : Option Nat)
  | send (k : Nat)
  /-- `*guard = Some(resp_tx)`. -/
  | register (k : Nat)
  | write
  | onData (data : Bytes)
  /-- The deadline passes. `time::timeout` looks at the receiver first. -/
  | elapse (k : Nat)
  | resume (k : Nat)
  /-- `TcpClient::run` returns. -/
  | stop
  deriving DecidableEq, Repr

namespace OpenSocketQuerier

def start : OpenSocketQuerier := ⟨none, [], [], [], [], true⟩

/-- The `full` of `query_l` (open_socket_querier.rs:55-57). -/
def full (data appId openSocketId : List Char) : Bytes :=
  Utf8.encode (appId ++ "-".toList ++ openSocketId ++ "&*&".toList) ++ Utf8.encode data

/-- `sender.send(data)`; nothing happens where the receiver is gone. -/
def sendTo (calls : List QueryPc) (k : Nat) (data : Bytes) : List QueryPc :=
  match calls[k]? with
  | some (.waiting timeout .open) => calls.set k (.waiting timeout (.sent data))
  | _ => calls

/-- The sender in the slot is dropped when another one takes its place. -/
def dropSender (calls : List QueryPc) : Option Nat → List QueryPc
  | none => calls
  | some k =>
    match calls[k]? with
    | some (.waiting timeout .open) => calls.set k (.waiting timeout .closed)
    | _ => calls

def step (s : OpenSocketQuerier) : QuerierAct → Option OpenSocketQuerier
  | .call data appId openSocketId timeout =>
    some { s with calls := s.calls ++ [.begun (full data appId openSocketId) timeout] }
  | .send k =>
    match s.calls[k]? with
    | some (.begun full timeout) =>
      if s.running then some { s with calls := s.calls.set k (.sent timeout), tx := s.tx ++ [(k, full)] }
      else some { s with calls := s.calls.set k (.returned (.error .sendFailed)) }
    | _ => none
  | .register k =>
    match s.calls[k]? with
    | some (.sent timeout) => some { s with
        pendingResponse := some k
        calls := (dropSender s.calls s.pendingResponse).set k (.waiting timeout .open) }
    | _ => none
  | .write =>
    match s.running, s.tx with
    | true, packet :: rest => some { s with tx := rest, written := s.written ++ [packet] }
    | _, _ => none
  | .onData data =>
    if s.running then some { s with
        pendingResponse := none
        calls := match s.pendingResponse with
          | some k => sendTo s.calls k data
          | none => s.calls
        handed := s.handed ++ [data] }
    else none
  | .elapse k =>
    match s.calls[k]? with
    | some (.waiting (some d) .open) => some { s with calls := s.calls.set k (.returned (.error (.timedOut d))) }
    | _ => none
  | .resume k =>
    match s.calls[k]? with
    | some (.waiting _ (.sent r)) => some { s with calls := s.calls.set k (.returned (fromUtf8 r)) }
    | some (.waiting _ .closed) => some { s with calls := s.calls.set k (.returned (.error .responseChannelClosed)) }
    | _ => none
  | .stop => some { s with running := false }

def system : System OpenSocketQuerier QuerierAct := ⟨step⟩

/-- The ways a step can go. -/
inductive Step (s : OpenSocketQuerier) : QuerierAct → OpenSocketQuerier → Prop where
  | call (data appId openSocketId : List Char) (timeout : Option Nat) :
      Step s (.call data appId openSocketId timeout)
        { s with calls := s.calls ++ [.begun (full data appId openSocketId) timeout] }
  | submitted {k : Nat} {full : Bytes} {timeout : Option Nat} (hk : s.calls[k]? = some (.begun full timeout)) :
      Step s (.send k) { s with calls := s.calls.set k (.sent timeout), tx := s.tx ++ [(k, full)] }
  | sendFailed {k : Nat} {full : Bytes} {timeout : Option Nat} (hk : s.calls[k]? = some (.begun full timeout)) :
      Step s (.send k) { s with calls := s.calls.set k (.returned (.error .sendFailed)) }
  | register {k : Nat} {timeout : Option Nat} (hk : s.calls[k]? = some (.sent timeout)) :
      Step s (.register k) { s with
        pendingResponse := some k
        calls := (dropSender s.calls s.pendingResponse).set k (.waiting timeout .open) }
  | write {packet : Nat × Bytes} {rest : List (Nat × Bytes)} (ht : s.tx = packet :: rest) :
      Step s .write { s with tx := rest, written := s.written ++ [packet] }
  | ignored {data : Bytes} (hp : s.pendingResponse = none) :
      Step s (.onData data) { s with handed := s.handed ++ [data] }
  | took {k : Nat} {data : Bytes} (hp : s.pendingResponse = some k) :
      Step s (.onData data) { s with
        pendingResponse := none
        calls := sendTo s.calls k data
        handed := s.handed ++ [data] }
  | elapse {k d : Nat} (hk : s.calls[k]? = some (.waiting (some d) .open)) :
      Step s (.elapse k) { s with calls := s.calls.set k (.returned (.error (.timedOut d))) }
  | received {k : Nat} {timeout : Option Nat} {r : Bytes} (hk : s.calls[k]? = some (.waiting timeout (.sent r))) :
      Step s (.resume k) { s with calls := s.calls.set k (.returned (fromUtf8 r)) }
  | closed {k : Nat} {timeout : Option Nat} (hk : s.calls[k]? = some (.waiting timeout .closed)) :
      Step s (.resume k) { s with calls := s.calls.set k (.returned (.error .responseChannelClosed)) }
  | stop : Step s .stop { s with running := false }

theorem step_cases {s u : OpenSocketQuerier} {a : QuerierAct} (h : step s a = some u) : Step s a u := by
  cases a with
  | call data appId openSocketId timeout => cases h; exact .call data appId openSocketId timeout
  | send k =>
    simp only [step] at h
    split at h
    · rename_i hk
      split at h <;> cases h
      · exact .submitted hk
      · exact .sendFailed hk
    · cases h
  | register k =>
    simp only [step] at h
    split at h
    · rename_i hk
      cases h
      exact .register hk
    · cases h
  | write =>
    simp only [step] at h
    split at h
    · rename_i ht
      cases h
      exact .write ht
    · cases h
  | onData data =>
    simp only [step] at h
    split at h
    · cases h
      obtain ⟨pendingResponse, calls, tx, written, handed, running⟩ := s
      cases pendingResponse with
      | none => exact .ignored rfl
      | some k => exact .took rfl
    · cases h
  | elapse k =>
    simp only [step] at h
    split at h
    · rename_i hk
      cases h
      exact .elapse hk
    · cases h
  | resume k =>
    simp only [step] at h
    split at h
    · rename_i hk
      cases h
      exact .received hk
    · rename_i hk
      cases h
      exact .closed hk
    · cases h
  | stop => cases h; exact .stop

end OpenSocketQuerier
end KnotLink.Rust
