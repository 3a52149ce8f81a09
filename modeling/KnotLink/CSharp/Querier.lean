import KnotLink.Lib.Run
/-!
# C# `OpenSocketQuerier` (OpenSocketQuerier.cs)

Any number of threads call `Query`, the receive loop calls `OnDataReceivedAsync`. The fields they share
change in small critical sections of `_lock`; a step is one of them or what a thread does between two. The
receive loop tests `_isQuerying` in one section and acts on it in another. Calls of `Query` are numbered in
the order of their first section.

`_queryEvent` is a `ManualResetEventSlim`: `Wait` returns `true` only when it sees the event set, so a
`Set` that is undone by a `Reset` before the waiter runs is lost.
-/
namespace KnotLink.CSharp
open Lib

/-- The fields under `_lock`, generic in the type of messages: nothing here looks at a text. -/
structure QueryShared (τ : Type) where
  queryResult : Option τ
  isQuerying : Bool
  queryEvent : Bool
  deriving DecidableEq, Repr

namespace QueryShared
variable {τ : Type}

def init : QueryShared τ := ⟨none, false, false⟩

/-- The check of `Query` (OpenSocketQuerier.cs:77-84); nothing is "A query is already in progress.". -/
def enter (s : QueryShared τ) : Option (QueryShared τ) :=
  if s.isQuerying then none
  else some { s with isQuerying := true, queryResult := none, queryEvent := false }

/-- `_isQuerying = false`, in all three places of `Query`. -/
def clear (s : QueryShared τ) : QueryShared τ := { s with isQuerying := false }

/-- The second section of `OnDataReceivedAsync` (OpenSocketQuerier.cs:146-151). -/
def store (s : QueryShared τ) (data : τ) : QueryShared τ :=
  { s with queryResult := some data, isQuerying := false, queryEvent := true }

end QueryShared

/-- What `Query` throws from its body. -/
inductive QueryException where
  | timedOut (timeoutMs : Int)
  /-- "No result received." -/
  | noResult
  /-- Whatever `SendQuery` throws. -/
  | send
  deriving DecidableEq, Repr

/-- Where a call of `Query` stands. -/
inductive QueryPc where
  /-- Behind the check. -/
  | entered (timeoutMs : Int)
  /-- In `Wait`. -/
  | waiting (timeoutMs : Int)
  /-- `Wait` has returned `true`. -/
  | woken
  /-- `Wait` has returned `false`. -/
  | expired (timeoutMs : Int)
  /-- Before the section of the `catch` block. -/
  | failing (e : QueryException)
  | ended
  /-- Refused by the check. -/
  | rejected
  deriving DecidableEq, Repr

namespace QueryPc

/-- The call has not timed out or failed and has not returned. -/
def waits : QueryPc → Bool
  | entered _ | waiting _ | woken => true
  | _ => false

end QueryPc

/-- Where the receive loop stands in `OnDataReceivedAsync`. -/
inductive RecvPc (τ : Type) where
  | idle
  /-- `isQuerying` was read as `true`. -/
  | storing (data : τ)
  /-- It was read as `false`, and there is a callback. -/
  | calling (data : τ)
  deriving DecidableEq, Repr

structure Queriers (τ : Type) where
  shared : QueryShared τ
  calls : List QueryPc
  recv : RecvPc τ
  /-- The calls whose requests were sent, in order. -/
  requests : List Nat
  /-- The messages `OnDataReceivedAsync` was given, in order. -/
  handed : List τ
  callbacks : List τ
  /-- The calls that have returned and what they returned, in order. -/
  returns : List (Nat × τ)
  deriving DecidableEq, Repr

inductive QuerierAct (τ : Type) where
  | query (timeoutMs : Int)
  | send (k : Nat)
  | sendFails (k : Nat)
  | wake (k : Nat)
  | timeout (k : Nat)
  /-- The section behind `Wait`. -/
  | finish (k : Nat)
  /-- The section of the `catch` block. -/
  | rethrow (k : Nat)
  | receive (data : τ)
  | store
  | callback
  deriving DecidableEq, Repr

namespace Queriers
variable {τ : Type}

def start : Queriers τ := ⟨.init, [], .idle, [], [], [], []⟩

/-- `callback` tells whether `SetRecvFunc` has set one. -/
def step (callback : Bool) (s : Queriers τ) : QuerierAct τ → Option (Queriers τ)
  | .query timeoutMs =>
    match s.shared.enter with
    | some shared => some { s with shared, calls := s.calls ++ [.entered timeoutMs] }
    | none => some { s with calls := s.calls ++ [.rejected] }
  | .send k =>
    match s.calls[k]? with
    | some (.entered timeoutMs) =>
      some { s with calls := s.calls.set k (.waiting timeoutMs), requests := s.requests ++ [k] }
    | _ => none
  | .sendFails k =>
    match s.calls[k]? with
    | some (.entered _) => some { s with calls := s.calls.set k (.failing .send) }
    | _ => none
  | .wake k =>
    match s.calls[k]? with
    | some (.waiting _) => if s.shared.queryEvent then some { s with calls := s.calls.set k .woken } else none
    | _ => none
  | .timeout k =>
    match s.calls[k]? with
    | some (.waiting timeoutMs) =>
      if timeoutMs < 0 then none else some { s with calls := s.calls.set k (.expired timeoutMs) }
    | _ => none
  | .finish k =>
    match s.calls[k]? with
    | some .woken =>
      match s.shared.queryResult with
      | some result => some { s with
          shared := s.shared.clear, calls := s.calls.set k .ended, returns := s.returns ++ [(k, result)] }
      | none => some { s with shared := s.shared.clear, calls := s.calls.set k (.failing .noResult) }
    | some (.expired timeoutMs) =>
      some { s with shared := s.shared.clear, calls := s.calls.set k (.failing (.timedOut timeoutMs)) }
    | _ => none
  | .rethrow k =>
    match s.calls[k]? with
    | some (.failing _) => some { s with shared := s.shared.clear, calls := s.calls.set k .ended }
    | _ => none
  | .receive data =>
    match s.recv with
    | .idle => some { s with
        recv := if s.shared.isQuerying then .storing data else if callback then .calling data else .idle
        handed := s.handed ++ [data] }
    | _ => none
  | .store =>
    match s.recv with
    | .storing data => some { s with shared := s.shared.store data, recv := .idle }
    | _ => none
  | .callback =>
    match s.recv with
    | .calling data => some { s with callbacks := s.callbacks ++ [data], recv := .idle }
    | _ => none

def system (callback : Bool) : System (Queriers τ) (QuerierAct τ) := ⟨step callback⟩

/-! ## What a step can do -/

/-- The ways a step can go. -/
inductive Step (callback : Bool) (s : Queriers τ) : QuerierAct τ → Queriers τ → Prop where
  | entered {timeoutMs : Int} (hq : s.shared.isQuerying = false) : Step callback s (.query timeoutMs)
      { s with shared := ⟨none, true, false⟩, calls := s.calls ++ [.entered timeoutMs] }
  | rejected {timeoutMs : Int} (hq : s.shared.isQuerying = true) : Step callback s (.query timeoutMs)
      { s with calls := s.calls ++ [.rejected] }
  | sent {k : Nat} {timeoutMs : Int} (hk : s.calls[k]? = some (.entered timeoutMs)) : Step callback s (.send k)
      { s with calls := s.calls.set k (.waiting timeoutMs), requests := s.requests ++ [k] }
  | unsent {k : Nat} {timeoutMs : Int} (hk : s.calls[k]? = some (.entered timeoutMs)) :
      Step callback s (.sendFails k) { s with calls := s.calls.set k (.failing .send) }
  | woken {k : Nat} {timeoutMs : Int} (hk : s.calls[k]? = some (.waiting timeoutMs))
      (he : s.shared.queryEvent = true) : Step callback s (.wake k) { s with calls := s.calls.set k .woken }
  | expired {k : Nat} {timeoutMs : Int} (hk : s.calls[k]? = some (.waiting timeoutMs)) (ht : 0 ≤ timeoutMs) :
      Step callback s (.timeout k) { s with calls := s.calls.set k (.expired timeoutMs) }
  | returned {k : Nat} {result : τ} (hk : s.calls[k]? = some .woken) (hr : s.shared.queryResult = some result) :
      Step callback s (.finish k)
      { s with shared := s.shared.clear, calls := s.calls.set k .ended, returns := s.returns ++ [(k, result)] }
  | noResult {k : Nat} (hk : s.calls[k]? = some .woken) (hr : s.shared.queryResult = none) :
      Step callback s (.finish k)
      { s with shared := s.shared.clear, calls := s.calls.set k (.failing .noResult) }
  | timedOut {k : Nat} {timeoutMs : Int} (hk : s.calls[k]? = some (.expired timeoutMs)) :
      Step callback s (.finish k)
      { s with shared := s.shared.clear, calls := s.calls.set k (.failing (.timedOut timeoutMs)) }
  | rethrown {k : Nat} {e : QueryException} (hk : s.calls[k]? = some (.failing e)) : Step callback s (.rethrow k)
      { s with shared := s.shared.clear, calls := s.calls.set k .ended }
  | received {data : τ} (hr : s.recv = .idle) : Step callback s (.receive data)
      { s with
        recv := if s.shared.isQuerying then .storing data else if callback then .calling data else .idle
        handed := s.handed ++ [data] }
  | stored {data : τ} (hr : s.recv = .storing data) : Step callback s .store
      { s with shared := s.shared.store data, recv := .idle }
  | called {data : τ} (hr : s.recv = .calling data) : Step callback s .callback
      { s with callbacks := s.callbacks ++ [data], recv := .idle }

theorem step_cases {callback : Bool} {s u : Queriers τ} {a : QuerierAct τ} (h : step callback s a = some u) :
    Step callback s a u := by
  cases a with
  | query timeoutMs =>
    simp only [step, QueryShared.enter] at h
    cases hq : s.shared.isQuerying <;> rw [hq] at h <;> cases h
    · exact .entered hq
    · exact .rejected hq
  | send k =>
    simp only [step] at h
    split at h <;> cases h
    exact .sent ‹_›
  | sendFails k =>
    simp only [step] at h
    split at h <;> cases h
    exact .unsent ‹_›
  | wake k =>
    simp only [step] at h
    split at h
    · rename_i hk
      split at h <;> cases h
      exact .woken hk ‹_›
    · cases h
  | timeout k =>
    simp only [step] at h
    split at h
    · rename_i hk
      split at h <;> cases h
      exact .expired hk (Int.not_lt.1 ‹_›)
    · cases h
  | finish k =>
    simp only [step] at h
    split at h
    · rename_i hk
      split at h <;> cases h
      · exact .returned hk ‹_›
      · exact .noResult hk ‹_›
    · cases h
      exact .timedOut ‹_›
    · cases h
  | rethrow k =>
    simp only [step] at h
    split at h <;> cases h
    exact .rethrown ‹_›
  | receive data =>
    simp only [step] at h
    split at h <;> cases h
    exact .received ‹_›
  | store =>
    simp only [step] at h
    split at h <;> cases h
    exact .stored ‹_›
  | callback =>
    simp only [step] at h
    split at h <;> cases h
    exact .called ‹_›

end Queriers
end KnotLink.CSharp
