import KnotLink.Lib.Slot
import KnotLink.Lib.Text
import KnotLink.Frame
/-!
# Java `OpenSocketQuerier` (OpenSocketQuerier.java)

Any number of threads call `queryL`, the reader thread runs `onDataReceived`, others call `close`. A step is
one operation on the `AtomicReference` or on a future, or the writing of a request. Calls of `queryL` are
numbered in the order in which they begin, and a future has the number of its call.

`queryL` writes the request before it puts its future into `pendingFuture` (OpenSocketQuerier.java:75-83).
-/
namespace KnotLink.Java
open Lib

/-- A `CompletableFuture<String>`. -/
inductive Future (τ : Type) where
  | pending
  | completed (data : τ)
  | cancelled
  deriving DecidableEq, Repr

namespace Future
variable {τ : Type}

/-- `complete(data)`: a future that is done stays as it is. -/
def complete (f : Future τ) (data : τ) : Future τ :=
  match f with
  | pending => completed data
  | f => f

/-- `cancel(true)`. -/
def cancel : Future τ → Future τ
  | pending => cancelled
  | f => f

end Future

/-- Where a call of `queryL` stands. -/
inductive QueryPc (τ : Type) where
  | begun (question : List Char)
  /-- Behind `tcpClient.sendData`. -/
  | sent
  /-- It has put its future into `pendingFuture` and returns it. -/
  | returned (future : Future τ)
  deriving DecidableEq, Repr

def QueryPc.isReturned {τ : Type} : QueryPc τ → Bool
  | returned _ => true
  | begun _ | sent => false

structure QuerierConfig where
  appId : List Char
  openSocketId : List Char
  deriving DecidableEq, Repr

structure OpenSocketQuerier (τ : Type) where
  pendingFuture : Option Nat
  calls : List (QueryPc τ)
  /-- What the reader thread has in hand between `getAndSet(null)` and `complete`. -/
  reader : Option (Nat × τ)
  /-- What `close` has taken out and is about to cancel. -/
  closing : List Nat
  /-- The calls whose requests were written, in order. -/
  requests : List Nat
  /-- The arguments of `onDataReceived`, in order. -/
  handed : List τ
  deriving DecidableEq, Repr

inductive QuerierAct (τ : Type) where
  | call (question : List Char)
  /-- `tcpClient.sendData(packet)`; `io` says whether the socket takes it. -/
  | send (k : Nat) (io : Bool)
  /-- `pendingFuture.set(future)` with a new future. -/
  | set (k : Nat)
  | receive (data : τ)
  | complete
  | close
  | cancel
  deriving DecidableEq, Repr

namespace OpenSocketQuerier
variable {τ : Type}

def start : OpenSocketQuerier τ := ⟨none, [], none, [], [], []⟩

/-- `buildPacket` (OpenSocketQuerier.java:70). -/
def buildPacket (cfg : QuerierConfig) (question : List Char) : List Char :=
  cfg.appId ++ "-".toList ++ cfg.openSocketId ++ "&*&".toList ++ question

/-- Whether `sendData` writes the packet; if not, it prints an error and returns (TcpClient.java:70-81). -/
def written (packet : List Char) (io : Bool) : Bool := (Utf8.encode packet).length ≤ MAX_MSG_SIZE && io

def step (cfg : QuerierConfig) (s : OpenSocketQuerier τ) : QuerierAct τ → Option (OpenSocketQuerier τ)
  | .call question => some { s with calls := s.calls ++ [.begun question] }
  | .send k io =>
    match s.calls[k]? with
    | some (.begun question) => some { s with
        calls := s.calls.set k .sent
        requests := if written (buildPacket cfg question) io then s.requests ++ [k] else s.requests }
    | _ => none
  | .set k =>
    match s.calls[k]? with
    | some .sent => some { s with pendingFuture := some k, calls := s.calls.set k (.returned .pending) }
    | _ => none
  | .receive data =>
    match s.reader with
    | some _ => none
    | none => some { s with
        pendingFuture := none
        reader := s.pendingFuture.map fun k => (k, data)
        handed := s.handed ++ [data] }
  | .complete =>
    match s.reader with
    | none => none
    | some (k, data) =>
      match s.calls[k]? with
      | some (.returned future) =>
        some { s with reader := none, calls := s.calls.set k (.returned (future.complete data)) }
      | _ => none
  | .close => some { s with pendingFuture := none, closing := s.closing ++ s.pendingFuture.toList }
  | .cancel =>
    match s.closing with
    | [] => none
    | k :: rest =>
      match s.calls[k]? with
      | some (.returned future) =>
        some { s with closing := rest, calls := s.calls.set k (.returned future.cancel) }
      | _ => none

def system (cfg : QuerierConfig) : System (OpenSocketQuerier τ) (QuerierAct τ) := ⟨step cfg⟩

/-- The ways a step can go. -/
inductive Step (cfg : QuerierConfig) (s : OpenSocketQuerier τ) : QuerierAct τ → OpenSocketQuerier τ → Prop where
  | call (question : List Char) : Step cfg s (.call question) { s with calls := s.calls ++ [.begun question] }
  | sent {k : Nat} {question : List Char} {io : Bool} (hk : s.calls[k]? = some (.begun question))
      (hw : written (buildPacket cfg question) io = true) :
      Step cfg s (.send k io) { s with calls := s.calls.set k .sent, requests := s.requests ++ [k] }
  | unsent {k : Nat} {question : List Char} {io : Bool} (hk : s.calls[k]? = some (.begun question))
      (hw : written (buildPacket cfg question) io = false) :
      Step cfg s (.send k io) { s with calls := s.calls.set k .sent }
  | set {k : Nat} (hk : s.calls[k]? = some .sent) :
      Step cfg s (.set k) { s with pendingFuture := some k, calls := s.calls.set k (.returned .pending) }
  | ignored {data : τ} (hr : s.reader = none) (hp : s.pendingFuture = none) :
      Step cfg s (.receive data) { s with handed := s.handed ++ [data] }
  | took {k : Nat} {data : τ} (hr : s.reader = none) (hp : s.pendingFuture = some k) :
      Step cfg s (.receive data) { s with
        pendingFuture := none
        reader := some (k, data)
        handed := s.handed ++ [data] }
  | complete {k : Nat} {data : τ} {future : Future τ} (hr : s.reader = some (k, data))
      (hk : s.calls[k]? = some (.returned future)) :
      Step cfg s .complete { s with reader := none, calls := s.calls.set k (.returned (future.complete data)) }
  | close : Step cfg s .close { s with pendingFuture := none, closing := s.closing ++ s.pendingFuture.toList }
  | cancel {k : Nat} {rest : List Nat} {future : Future τ} (hc : s.closing = k :: rest)
      (hk : s.calls[k]? = some (.returned future)) :
      Step cfg s .cancel { s with closing := rest, calls := s.calls.set k (.returned future.cancel) }

theorem step_cases {cfg : QuerierConfig} {s u : OpenSocketQuerier τ} {a : QuerierAct τ} (h : step cfg s a = some u) :
    Step cfg s a u := by
  cases a with
  | call question => cases h; exact .call question
  | send k io =>
    simp only [step] at h
    split at h
    · rename_i question hk
      cases hw : written (buildPacket cfg question) io <;> rw [hw] at h <;> cases h
      · exact .unsent hk hw
      · exact .sent hk hw
    · cases h
  | set k =>
    simp only [step] at h
    split at h
    · rename_i hk
      cases h
      exact .set hk
    · cases h
  | receive data =>
    obtain ⟨pendingFuture, calls, reader, closing, requests, handed⟩ := s
    cases reader with
    | some r => cases h
    | none =>
      cases pendingFuture with
      | none => cases h; exact .ignored rfl rfl
      | some k => cases h; exact .took rfl rfl
  | complete =>
    simp only [step] at h
    split at h
    · cases h
    · rename_i k data hr
      split at h
      · rename_i hk
        cases h
        exact .complete hr hk
      · cases h
  | close => cases h; exact .close
  | cancel =>
    simp only [step] at h
    split at h
    · cases h
    · rename_i hc
      split at h
      · rename_i hk
        cases h
        exact .cancel hc hk
      · cases h

end OpenSocketQuerier
end KnotLink.Java
