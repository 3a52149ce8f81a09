import KnotLink.Lib.Dict
import KnotLink.Lib.Run
import KnotLink.Frame
/-!
# C++ `OpenSocketQuerier` (OpenSocketQuerier.hpp)

Any number of threads call `query_l`, the receive thread runs `handleReceivedData`. Both hold `mtx_`, which
`query_l` gives up only while it waits: a step is what a thread does while it holds the lock. Calls of
`query_l` are numbered in the order in which they take the lock. A key of `answers_` is the number it prints.

An answer is stored under the value `questionCounter_` has when it arrives (OpenSocketQuerier.hpp:73).
-/
namespace KnotLink.Cpp
open Lib

/-- Where a call of `query_l` stands. -/
inductive QueryPc where
  /-- In `cv_.wait` or, where `timeoutMs` is not negative, in `cv_.wait_for`. -/
  | waiting (qid : Nat) (timeoutMs : Int)
  | returned (ans : Bytes)
  /-- It has thrown "query_l timed out". -/
  | timedOut (timeoutMs : Int)
  deriving DecidableEq, Repr

structure QuerierConfig where
  appID : Bytes
  openSocketID : Bytes
  deriving DecidableEq, Repr

structure OpenSocketQuerier where
  questionCounter : Nat
  answers : Dict Nat Bytes
  calls : List QueryPc
  /-- The packets written, each with its call. -/
  requests : List (Nat × Bytes)
  /-- The arguments of `handleReceivedData`, in order. -/
  handed : List Bytes

inductive QuerierAct where
  /-- From the lock to the first look at `answers_`; `io` says whether `sendData` writes the packet. -/
  | call (question : Bytes) (timeoutMs : Int) (io : Bool)
  | handleReceivedData (data : Bytes)
  /-- A waiting call finds its answer. -/
  | wake (k : Nat)
  /-- The deadline of a call passes and its answer is not there. -/
  | timeout (k : Nat)
  deriving DecidableEq, Repr

namespace OpenSocketQuerier

def start : OpenSocketQuerier := ⟨0, .empty, [], [], []⟩

def packet (cfg : QuerierConfig) (question : Bytes) : Bytes :=
  cfg.appID ++ ascii "-" ++ cfg.openSocketID ++ ascii "&*&" ++ question

/-- `++questionCounter_` of a `uint64_t`. -/
def nextQid (s : OpenSocketQuerier) : Nat := (s.questionCounter + 1) % 2 ^ 64

def step (cfg : QuerierConfig) (s : OpenSocketQuerier) : QuerierAct → Option OpenSocketQuerier
  | .call question timeoutMs io =>
    let qid := s.nextQid
    let requests := if io then s.requests ++ [(s.calls.length, packet cfg question)] else s.requests
    match s.answers.get? qid with
    | some ans => some { s with
        questionCounter := qid
        answers := s.answers.erase qid
        calls := s.calls ++ [.returned ans]
        requests }
    | none => some { s with questionCounter := qid, calls := s.calls ++ [.waiting qid timeoutMs], requests }
  | .handleReceivedData data =>
    some { s with answers := s.answers.insert s.questionCounter data, handed := s.handed ++ [data] }
  | .wake k =>
    match s.calls[k]? with
    | some (.waiting qid _) =>
      match s.answers.get? qid with
      | some ans => some { s with answers := s.answers.erase qid, calls := s.calls.set k (.returned ans) }
      | none => none
    | _ => none
  | .timeout k =>
    match s.calls[k]? with
    | some (.waiting qid timeoutMs) =>
      if 0 ≤ timeoutMs ∧ s.answers.get? qid = none then
        some { s with calls := s.calls.set k (.timedOut timeoutMs) }
      else none
    | _ => none

def system (cfg : QuerierConfig) : System OpenSocketQuerier QuerierAct := ⟨step cfg⟩

/-- The ways a step can go. -/
inductive Step (cfg : QuerierConfig) (s : OpenSocketQuerier) : QuerierAct → OpenSocketQuerier → Prop where
  | found {question : Bytes} {timeoutMs : Int} {io : Bool} {ans : Bytes} (ha : s.answers.get? s.nextQid = some ans) :
      Step cfg s (.call question timeoutMs io) { s with
        questionCounter := s.nextQid
        answers := s.answers.erase s.nextQid
        calls := s.calls ++ [.returned ans]
        requests := if io then s.requests ++ [(s.calls.length, packet cfg question)] else s.requests }
  | blocked {question : Bytes} {timeoutMs : Int} {io : Bool} (ha : s.answers.get? s.nextQid = none) :
      Step cfg s (.call question timeoutMs io) { s with
        questionCounter := s.nextQid
        calls := s.calls ++ [.waiting s.nextQid timeoutMs]
        requests := if io then s.requests ++ [(s.calls.length, packet cfg question)] else s.requests }
  | stored {data : Bytes} : Step cfg s (.handleReceivedData data)
      { s with answers := s.answers.insert s.questionCounter data, handed := s.handed ++ [data] }
  | wake {k qid : Nat} {timeoutMs : Int} {ans : Bytes} (hk : s.calls[k]? = some (.waiting qid timeoutMs))
      (ha : s.answers.get? qid = some ans) :
      Step cfg s (.wake k) { s with answers := s.answers.erase qid, calls := s.calls.set k (.returned ans) }
  | timeout {k qid : Nat} {timeoutMs : Int} (hk : s.calls[k]? = some (.waiting qid timeoutMs)) (ht : 0 ≤ timeoutMs)
      (ha : s.answers.get? qid = none) :
      Step cfg s (.timeout k) { s with calls := s.calls.set k (.timedOut timeoutMs) }

theorem step_cases {cfg : QuerierConfig} {s u : OpenSocketQuerier} {a : QuerierAct} (h : step cfg s a = some u) :
    Step cfg s a u := by
  cases a with
  | call question timeoutMs io =>
    simp only [step] at h
    split at h
    · rename_i ha
      cases h
      exact .found ha
    · rename_i ha
      cases h
      exact .blocked ha
  | handleReceivedData data => cases h; exact .stored
  | wake k =>
    simp only [step] at h
    split at h
    · rename_i hk
      split at h
      · rename_i ha
        cases h
        exact .wake hk ha
      · cases h
    · cases h
  | timeout k =>
    simp only [step] at h
    split at h
    · rename_i hk
      split at h
      · rename_i ht
        cases h
        exact .timeout hk ht.1 ht.2
      · cases h
    · cases h

end OpenSocketQuerier
end KnotLink.Cpp
