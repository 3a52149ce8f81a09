import KnotLink.Lib.Run
import KnotLink.Python.Querier
/-!
# The threads of a Python `OpenSocketQuerier`

Any number of threads call `query`, the receive thread runs `_internal_data_recv`, others call
`disconnect`. A step is a critical section or what a thread does between two of them. Calls of `query`
are numbered in the order of their first critical section.

What the user's callback raises goes through `_internal_data_recv` into `receive_data`, where `except socket.error`
catches some of it (tcpclient.py:100): either way the receive thread ends, and only there is `connected` cleared.

`query_event` is a CPython `Event`: `wait` returns at once when it is set, `set` wakes every thread that
is waiting, and a thread once woken returns `True` even if the event is cleared before it runs.
-/
namespace KnotLink.Python
open Lib

/-- What does not change during a run. -/
structure QuerierConfig where
  appID : Option PyStr
  openSocketID : Option PyStr
  /-- Whether `set_RecvFunc` has set a callback. -/
  callback : Bool
  deriving DecidableEq, Repr

/-- Where a call of `query` stands. -/
inductive Pc where
  /-- Behind its first critical section. -/
  | begun (data : PyStr) (timed : Bool)
  /-- Behind `_query`. -/
  | sent (timed : Bool)
  /-- Blocked in `query_event.wait`. -/
  | waiting (timed : Bool)
  /-- `wait` has returned `True`. -/
  | woken
  /-- `wait` has returned `False`. -/
  | expired
  /-- Returned or raised. -/
  | ended
  deriving DecidableEq, Repr

namespace Pc

/-- The call may still return a value: `_query` will not raise `UnicodeEncodeError`. -/
def live (cfg : QuerierConfig) : Pc → Bool
  | begun data _ => (queryMessage cfg.appID cfg.openSocketID data).isOk
  | sent _ | waiting _ | woken => true
  | expired | ended => false

/-- `query_event.set()`. -/
def wake : Pc → Pc
  | waiting _ => woken
  | p => p

@[simp] theorem live_wake (cfg : QuerierConfig) (p : Pc) : p.wake.live cfg = p.live cfg := by cases p <;> rfl

/-- A call whose request was sent was live. -/
theorem live_begun {cfg : QuerierConfig} {data : PyStr} {timed : Bool} {c c' : TcpClient} {net : TcpClient.SendAll}
    (h : sendQuery cfg.appID cfg.openSocketID c data net = (c', .ok ())) : (begun data timed).live cfg = true := by
  unfold sendQuery at h
  cases hm : queryMessage cfg.appID cfg.openSocketID data with
  | error e =>
    rw [hm] at h
    cases h
  | ok sData =>
    rw [live, hm]
    rfl

end Pc

structure QuerierThreads (τ : Type) where
  shared : QueryState τ
  client : TcpClient
  /-- The receive thread runs. -/
  receiving : Bool
  calls : List Pc
  /-- Calls of `disconnect` between closing the client and their critical section. -/
  disconnecting : Nat
  /-- What the receive thread is about to give to the callback. -/
  calling : Option τ
  /-- The calls whose requests the socket has taken, in order. -/
  requests : List Nat
  /-- The messages `_internal_data_recv` was given, in order. -/
  handed : List τ
  callbacks : List τ
  /-- The calls that have returned and what they returned, in order. -/
  returns : List (Nat × Option τ)
  deriving DecidableEq, Repr

/-- The steps of all threads. -/
inductive QuerierAct (τ : Type) where
  | call (data : PyStr) (timed : Bool)
  | send (k : Nat) (net : TcpClient.SendAll)
  | wait (k : Nat)
  | timeout (k : Nat)
  | finish (k : Nat)
  | recv (receivedText : τ)
  | callback
  | callbackRaises (e : Exn)
  /-- The receive thread ends: end of stream, an error, a bad frame, or `connected` was cleared. -/
  | lose
  | disconnect
  | disconnectShared
  deriving DecidableEq, Repr

namespace QuerierThreads
variable {τ : Type}

/-- The client when the callback has raised and the receive thread is gone. -/
def raised (c : TcpClient) : Exn → TcpClient
  | .socketError => { c with connected := false }
  | .other => c

def start (client : TcpClient) (receiving : Bool) : QuerierThreads τ :=
  ⟨.init, client, receiving, [], 0, none, [], [], [], []⟩

def step (cfg : QuerierConfig) (s : QuerierThreads τ) : QuerierAct τ → Option (QuerierThreads τ)
  | .call data timed => some { s with shared := s.shared.begin, calls := s.calls ++ [.begun data timed] }
  | .send k net =>
    match s.calls[k]? with
    | some (.begun data timed) =>
      match sendQuery cfg.appID cfg.openSocketID s.client data net with
      | (c, .error _) => some { s with client := c, calls := s.calls.set k .ended }
      | (c, .ok ()) => some { s with
          client := c
          calls := s.calls.set k (.sent timed)
          requests := if s.client.connected ∧ net = .ok then s.requests ++ [k] else s.requests }
    | _ => none
  | .wait k =>
    match s.calls[k]? with
    | some (.sent timed) =>
      some { s with calls := s.calls.set k (if s.shared.queryEvent then .woken else .waiting timed) }
    | _ => none
  | .timeout k =>
    match s.calls[k]? with
    | some (.waiting true) => some { s with calls := s.calls.set k .expired }
    | _ => none
  | .finish k =>
    match s.calls[k]? with
    | some .woken =>
      match s.shared.finish true with
      | (shared, some result) =>
        some { s with shared, calls := s.calls.set k .ended, returns := s.returns ++ [(k, result)] }
      | (shared, none) => some { s with shared, calls := s.calls.set k .ended }
    | some .expired => some { s with shared := (s.shared.finish false).1, calls := s.calls.set k .ended }
    | _ => none
  | .recv receivedText =>
    if s.receiving ∧ s.calling.isNone then
      match s.shared.recv receivedText with
      | (shared, true) =>
        some { s with shared, calls := s.calls.map Pc.wake, handed := s.handed ++ [receivedText] }
      | (_, false) => some { s with
          handed := s.handed ++ [receivedText]
          calling := if cfg.callback then some receivedText else none }
    else none
  | .callback =>
    match s.calling with
    | some m => some { s with callbacks := s.callbacks ++ [m], calling := none }
    | none => none
  | .callbackRaises e =>
    match s.calling with
    | some m => some { s with
        callbacks := s.callbacks ++ [m]
        calling := none
        client := raised s.client e
        receiving := false }
    | none => none
  | .lose =>
    if s.receiving ∧ s.calling.isNone then
      some { s with client := { s.client with connected := false }, receiving := false }
    else none
  | .disconnect => some { s with client := s.client.disconnect, disconnecting := s.disconnecting + 1 }
  | .disconnectShared =>
    match s.disconnecting with
    | 0 => none
    | n + 1 => some { s with
        shared := s.shared.disconnect, calls := s.calls.map Pc.wake, disconnecting := n }

def system (cfg : QuerierConfig) : System (QuerierThreads τ) (QuerierAct τ) := ⟨step cfg⟩

/-! ## What a step can do -/

/-- The ways a step can go. -/
inductive Step (cfg : QuerierConfig) (s : QuerierThreads τ) : QuerierAct τ → QuerierThreads τ → Prop where
  | call (data : PyStr) (timed : Bool) : Step cfg s (.call data timed)
      { s with shared := s.shared.begin, calls := s.calls ++ [.begun data timed] }
  | sent {k : Nat} {data : PyStr} {timed : Bool} {net : TcpClient.SendAll} {c : TcpClient}
      (hk : s.calls[k]? = some (.begun data timed))
      (he : sendQuery cfg.appID cfg.openSocketID s.client data net = (c, .ok ())) : Step cfg s (.send k net)
      { s with
        client := c
        calls := s.calls.set k (.sent timed)
        requests := if s.client.connected ∧ net = .ok then s.requests ++ [k] else s.requests }
  | raised {k : Nat} {data : PyStr} {timed : Bool} {net : TcpClient.SendAll} {c : TcpClient} {e : QueryError}
      (hk : s.calls[k]? = some (.begun data timed))
      (he : sendQuery cfg.appID cfg.openSocketID s.client data net = (c, .error e)) : Step cfg s (.send k net)
      { s with client := c, calls := s.calls.set k .ended }
  | passed {k : Nat} {timed : Bool} (hk : s.calls[k]? = some (.sent timed)) (he : s.shared.queryEvent = true) :
      Step cfg s (.wait k) { s with calls := s.calls.set k .woken }
  | blocked {k : Nat} {timed : Bool} (hk : s.calls[k]? = some (.sent timed)) (he : s.shared.queryEvent = false) :
      Step cfg s (.wait k) { s with calls := s.calls.set k (.waiting timed) }
  | timeout {k : Nat} (hk : s.calls[k]? = some (.waiting true)) :
      Step cfg s (.timeout k) { s with calls := s.calls.set k .expired }
  | returned {k : Nat} (hk : s.calls[k]? = some .woken) : Step cfg s (.finish k)
      { s with
        shared := { s.shared with isQuerying := false }
        calls := s.calls.set k .ended
        returns := s.returns ++ [(k, s.shared.queryResult)] }
  | timedOut {k : Nat} (hk : s.calls[k]? = some .expired) : Step cfg s (.finish k)
      { s with
        shared := { s.shared with isQuerying := false, timeoutOccurred := true }
        calls := s.calls.set k .ended }
  | stored {m : τ} (hr : s.receiving = true) (hc : s.calling = none) (hq : s.shared.isQuerying = true)
      (ht : s.shared.timeoutOccurred = false) : Step cfg s (.recv m)
      { s with
        shared := { s.shared with queryResult := some m, queryEvent := true }
        calls := s.calls.map Pc.wake
        handed := s.handed ++ [m] }
  | passedOn {m : τ} (hr : s.receiving = true) (hc : s.calling = none)
      (hn : s.shared.isQuerying = false ∨ s.shared.timeoutOccurred = true) : Step cfg s (.recv m)
      { s with handed := s.handed ++ [m], calling := if cfg.callback then some m else none }
  | callback {m : τ} (hc : s.calling = some m) : Step cfg s .callback
      { s with callbacks := s.callbacks ++ [m], calling := none }
  | callbackRaised {m : τ} {e : Exn} (hc : s.calling = some m) : Step cfg s (.callbackRaises e)
      { s with callbacks := s.callbacks ++ [m], calling := none, client := raised s.client e, receiving := false }
  | lose (hr : s.receiving = true) (hc : s.calling = none) : Step cfg s .lose
      { s with client := { s.client with connected := false }, receiving := false }
  | disconnect : Step cfg s .disconnect
      { s with client := s.client.disconnect, disconnecting := s.disconnecting + 1 }
  | disconnectShared {n : Nat} (hn : s.disconnecting = n + 1) : Step cfg s .disconnectShared
      { s with shared := s.shared.disconnect, calls := s.calls.map Pc.wake, disconnecting := n }

theorem step_cases {cfg : QuerierConfig} {s u : QuerierThreads τ} {a : QuerierAct τ} (h : step cfg s a = some u) :
    Step cfg s a u := by
  cases a with
  | call data timed => cases h; exact .call data timed
  | send k net =>
    simp only [step] at h
    split at h
    · rename_i data timed hk
      split at h
      · rename_i c e he
        cases h
        exact .raised hk he
      · rename_i c he
        cases h
        exact .sent hk he
    · cases h
  | wait k =>
    simp only [step] at h
    split at h
    · rename_i timed hk
      cases he : s.shared.queryEvent <;> rw [he] at h <;> cases h
      · exact .blocked hk he
      · exact .passed hk he
    · cases h
  | timeout k =>
    simp only [step] at h
    split at h
    · rename_i hk
      cases h
      exact .timeout hk
    · cases h
  | finish k =>
    simp only [step] at h
    split at h
    · rename_i hk
      cases h
      exact .returned hk
    · rename_i hk
      cases h
      exact .timedOut hk
    · cases h
  | recv m =>
    simp only [step, QueryState.recv] at h
    split at h
    · rename_i hr
      have hc := Option.isNone_iff_eq_none.1 hr.2
      by_cases hs : (s.shared.isQuerying && !s.shared.timeoutOccurred) = true
      · rw [if_pos hs] at h
        cases h
        rw [Bool.and_eq_true, Bool.not_eq_true'] at hs
        exact .stored hr.1 hc hs.1 hs.2
      · rw [if_neg hs] at h
        cases h
        simp only [Bool.and_eq_true, Bool.not_eq_true', not_and, Bool.not_eq_false] at hs
        refine .passedOn hr.1 hc ?_
        cases hq : s.shared.isQuerying
        · exact .inl rfl
        · exact .inr (hs hq)
    · cases h
  | callback =>
    simp only [step] at h
    split at h
    · rename_i hc
      cases h
      exact .callback hc
    · cases h
  | callbackRaises e =>
    simp only [step] at h
    split at h
    · rename_i hc
      cases h
      exact .callbackRaised hc
    · cases h
  | lose =>
    simp only [step] at h
    split at h
    · rename_i hr
      cases h
      exact .lose hr.1 (Option.isNone_iff_eq_none.1 hr.2)
    · cases h
  | disconnect => cases h; exact .disconnect
  | disconnectShared =>
    simp only [step] at h
    split at h
    · cases h
    · rename_i n hn
      cases h
      exact .disconnectShared hn

end QuerierThreads
end KnotLink.Python
