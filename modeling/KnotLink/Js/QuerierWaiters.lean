import KnotLink.Js.Querier
/-!
# A waiter and its request (OpenSocketQuerier.js, TcpClient.js)

The client may not be connected yet, or no more. `query`, `queryWith` and `querySync` fill their slot first and send
then; `_writeWithLengthPrefix` returns without a word where `connected` is not set, and throws above 16 MiB. It does not
look whether the peer has ended the connection either: from a socket's `end` to its `close`, which clears `connected`,
`tcpSocket.write` takes nothing and tells the caller nothing. Nothing takes the waiter out of the slot again
(`pendingReject` is never called), so it stays for a request that never went out. Every waiter has its request, and every
refused call reports an error and leaves the slots alone, exactly while all calls are made connected, before the peer has
ended, and with a packet within the limit (`accounted_throughout_iff`).
-/
namespace KnotLink.Js
open Lib

/-- The ways out of `_writeWithLengthPrefix` (TcpClient.js:53-63). -/
inductive Sending where
  /-- `connected` is not set: it returns. -/
  | skipped
  /-- It throws "消息过长". -/
  | tooLong (length : Nat)
  /-- The peer has ended: `tcpSocket.write` does not take it. -/
  | discarded
  | written
  deriving DecidableEq, Repr

/-- The caller learns of it: the call throws, or its promise is rejected. -/
def Sending.reported : Sending → Bool
  | .tooLong _ => true
  | .skipped | .discarded | .written => false

/-- The slots `responseCallback` and `pendingResolve`. -/
structure Slots where
  responseCallback : Option Nat
  pendingResolve : Option Nat
  deriving DecidableEq, Repr

def OpenSocketQuerier.slots (s : OpenSocketQuerier) : Slots := ⟨s.responseCallback, s.pendingResolve⟩

/-- A call that has been made: how its sending ended, and the slots before and after it. -/
structure Attempt where
  sending : Sending
  before : Slots
  after : Slots
  deriving DecidableEq, Repr

structure QuerierClient where
  connected : Bool
  /-- `tcpSocket` has met the peer's end (or an error) and takes no more writes; its `close` is still to come. -/
  ended : Bool
  querier : OpenSocketQuerier
  attempts : List Attempt
  deriving DecidableEq, Repr

inductive ClientAct where
  /-- The callback of `connect`. -/
  | connect
  /-- The socket's `end`, for which nobody listens. -/
  | peerEnds
  /-- `error`, `close` or `disconnect`. -/
  | lose
  | querier (a : QuerierAct)
  deriving DecidableEq, Repr

namespace QuerierClient

def start (appID openSocketID : Option (List Char)) : QuerierClient := ⟨false, false, .start appID openSocketID, []⟩

def writeWithLengthPrefix (s : QuerierClient) (data : Bytes) : Sending :=
  if !s.connected then .skipped
  else if OpenSocketQuerier.TooLong data then .tooLong data.length
  else if s.ended then .discarded
  else .written

/-- `_sendQuery` by the call that is made now and has filled its slot: `q` is the querier with the new waiter. -/
def sendQuery (s : QuerierClient) (q : OpenSocketQuerier) (packet : Bytes) : QuerierClient :=
  let sending := s.writeWithLengthPrefix packet
  let requests := if sending = .written then q.requests ++ [(q.calls, packet)] else q.requests
  let q := { q with calls := q.calls + 1, requests }
  { s with querier := q, attempts := s.attempts ++ [⟨sending, s.querier.slots, q.slots⟩] }

def query (s : QuerierClient) (data : Data) : QuerierClient :=
  let q := s.querier
  s.sendQuery { q with responseCallback := some q.calls }
    (OpenSocketQuerier.packet q.appID q.openSocketID data.toBuffer)

def queryWith (s : QuerierClient) (appID openSocketID : Option (List Char)) (data : Data) : QuerierClient :=
  let q := s.querier
  s.sendQuery { q with responseCallback := some q.calls } (OpenSocketQuerier.packet appID openSocketID data.toBuffer)

/-- What the executor of the promise throws rejects it. -/
def querySync (s : QuerierClient) (data : Data) : QuerierClient :=
  let q := s.querier
  let packet := OpenSocketQuerier.packet q.appID q.openSocketID data.toBuffer
  let rejected := if (s.writeWithLengthPrefix packet).reported then q.rejected ++ [q.calls] else q.rejected
  s.sendQuery { q with pendingResolve := some q.calls, rejected } packet

def step (s : QuerierClient) : ClientAct → Option QuerierClient
  | .connect => some { s with connected := true, ended := false }
  | .peerEnds => some { s with ended := true }
  | .lose => some { s with connected := false }
  | .querier (.query data) => some (s.query data)
  | .querier (.queryWith appID openSocketID data) => some (s.queryWith appID openSocketID data)
  | .querier (.querySync data) => some (s.querySync data)
  | .querier a => (OpenSocketQuerier.step s.querier a).map fun q => { s with querier := q }

def system : System QuerierClient ClientAct := ⟨step⟩

/-- The packet of a call that is made now. -/
def packet? (q : OpenSocketQuerier) : ClientAct → Option Bytes
  | .querier (.query data) | .querier (.querySync data) =>
    some (OpenSocketQuerier.packet q.appID q.openSocketID data.toBuffer)
  | .querier (.queryWith appID openSocketID data) =>
    some (OpenSocketQuerier.packet appID openSocketID data.toBuffer)
  | _ => none

/-- A call is made on a connected client whose peer has not ended, and its packet is within the limit. -/
def Sendable (s : QuerierClient) (a : ClientAct) : Prop :=
  ∀ p ∈ packet? s.querier a, s.connected = true ∧ s.ended = false ∧ ¬ OpenSocketQuerier.TooLong p

instance (s : QuerierClient) (a : ClientAct) : Decidable (Sendable s a) := by
  unfold Sendable
  infer_instance

/-- Who waits has its request on the wire; a call without one has reported an error and left the slots alone. -/
structure Accounted (s : QuerierClient) : Prop where
  requested : ∀ k : Nat, s.querier.responseCallback = some k ∨ s.querier.pendingResolve = some k →
    k ∈ s.querier.requests.map Prod.fst
  refused : ∀ a ∈ s.attempts, a.sending ≠ .written → a.sending.reported = true ∧ a.after = a.before

/-! ## One step -/

/-- A slot holds a call that was made. -/
def Numbered (q : OpenSocketQuerier) : Prop :=
  ∀ k : Nat, q.responseCallback = some k ∨ q.pendingResolve = some k → k < q.calls

variable {s u : QuerierClient} {a : ClientAct}

theorem writeWithLengthPrefix_eq_written {p : Bytes} :
    s.writeWithLengthPrefix p = .written ↔ s.connected = true ∧ s.ended = false ∧ ¬ OpenSocketQuerier.TooLong p := by
  unfold writeWithLengthPrefix
  by_cases hlong : OpenSocketQuerier.TooLong p <;> cases s.connected <;> cases s.ended <;> simp [hlong]

/-- A call with its new waiter in one of the slots. -/
theorem sendQuery_step (hI : Numbered s.querier) (hP : Accounted s) {q : OpenSocketQuerier} {p : Bytes}
    (hcalls : q.calls = s.querier.calls) (hrequests : q.requests = s.querier.requests)
    (hslots : q.slots = { s.querier.slots with responseCallback := some q.calls } ∨
      q.slots = { s.querier.slots with pendingResolve := some q.calls }) :
    Numbered (s.sendQuery q p).querier ∧
      (Accounted (s.sendQuery q p) ↔ s.connected = true ∧ s.ended = false ∧ ¬ OpenSocketQuerier.TooLong p) := by
  have hold : ∀ k : Nat, q.responseCallback = some k ∨ q.pendingResolve = some k →
      k = q.calls ∨ s.querier.responseCallback = some k ∨ s.querier.pendingResolve = some k := by
    intro k hk
    simp only [OpenSocketQuerier.slots, Slots.mk.injEq] at hslots
    rcases hslots with ⟨hc, hr⟩ | ⟨hc, hr⟩ <;> rw [hc, hr] at hk <;> rcases hk with hk | hk
    · exact .inl (Option.some.inj hk).symm
    · exact .inr (.inr hk)
    · exact .inr (.inl hk)
    · exact .inl (Option.some.inj hk).symm
  have hchanged : q.slots ≠ s.querier.slots := by
    intro h
    rw [h] at hslots
    -- the new number is in neither slot before
    rcases hslots with h | h
    · have := hI s.querier.calls (.inl (by simpa [OpenSocketQuerier.slots, hcalls] using congrArg Slots.responseCallback h))
      omega
    · have := hI s.querier.calls (.inr (by simpa [OpenSocketQuerier.slots, hcalls] using congrArg Slots.pendingResolve h))
      omega
  refine ⟨?_, ?_⟩
  · intro k hk
    simp only [sendQuery] at hk ⊢
    rcases hold k hk with rfl | hk
    · omega
    · have := hI k hk
      omega
  · rw [← writeWithLengthPrefix_eq_written]
    constructor
    · intro hu
      by_contra hw
      have := hu.refused ⟨_, s.querier.slots, q.slots⟩ (List.mem_append_right _ (List.mem_singleton_self _)) hw
      exact hchanged this.2
    · intro hw
      refine ⟨fun k hk => ?_, fun a ha hne => ?_⟩
      · simp only [sendQuery, hw, if_true, List.map_append, List.mem_append] at hk ⊢
        rcases hold k hk with rfl | hk
        · exact .inr (by simp)
        · exact .inl (hrequests ▸ hP.requested k hk)
      · rcases List.mem_append.1 ha with ha | ha
        · exact hP.refused a ha hne
        · rw [List.mem_singleton.1 ha] at hne
          exact absurd hw hne

/-- A step that makes no call only takes waiters out. -/
theorem quiet_step {q r : OpenSocketQuerier} {b : QuerierAct} (h : OpenSocketQuerier.step q b = some r)
    (hb : packet? q (.querier b) = none) : r.calls = q.calls ∧ r.requests = q.requests ∧
      (∀ k, r.responseCallback = some k → q.responseCallback = some k) ∧
      (∀ k, r.pendingResolve = some k → q.pendingResolve = some k) := by
  have hresolve : ∀ (q : OpenSocketQuerier) (result : List Char), (q.resolvePending result).calls = q.calls ∧
      (q.resolvePending result).requests = q.requests ∧
      (q.resolvePending result).responseCallback = q.responseCallback ∧
      (q.resolvePending result).pendingResolve = none := by
    intro q result
    unfold OpenSocketQuerier.resolvePending
    split <;> simp_all
  cases b with
  | query | queryWith | querySync => cases hb
  | setConfig appID openSocketID =>
    cases h
    simp
  | handleData data =>
    simp only [OpenSocketQuerier.step] at h
    split at h
    · cases h
    · split at h
      · cases h
        simp
      · cases h
        obtain ⟨h1, h2, h3, h4⟩ := hresolve { q with handled := q.handled ++ [data] } (Utf8.decodeReplace data)
        refine ⟨h1, h2, fun k hk => ?_, fun k hk => ?_⟩
        · rwa [h3] at hk
        · simp [h4] at hk
  | returns =>
    simp only [OpenSocketQuerier.step] at h
    split at h
    · rename_i result _
      cases h
      obtain ⟨h1, h2, h3, h4⟩ := hresolve { q with handling := none } result
      refine ⟨h1, h2, fun k hk => ?_, fun k hk => ?_⟩
      · rwa [h3] at hk
      · simp [h4] at hk
    · cases h
  | throws =>
    simp only [OpenSocketQuerier.step] at h
    split at h
    · cases h
      simp
    · cases h

theorem accounted_step (hI : Numbered s.querier) (hP : Accounted s) (h : step s a = some u) :
    Numbered u.querier ∧ (Accounted u ↔ Sendable s a) := by
  have hquiet : ∀ b, (OpenSocketQuerier.step s.querier b).map (fun q => { s with querier := q }) = some u →
      packet? s.querier (.querier b) = none → Numbered u.querier ∧ (Accounted u ↔ Sendable s (.querier b)) := by
    intro b hstep hb
    obtain ⟨q, hq, rfl⟩ := Option.map_eq_some_iff.1 hstep
    obtain ⟨hcalls, hrequests, hcallback, hresolve⟩ := quiet_step hq hb
    refine ⟨fun k hk => ?_, iff_of_true ⟨fun k hk => ?_, hP.refused⟩ (by simp [Sendable, hb])⟩
    · rw [hcalls]
      exact hI k (hk.imp (hcallback k) (hresolve k))
    · rw [hrequests]
      exact hP.requested k (hk.imp (hcallback k) (hresolve k))
  cases a with
  | connect =>
    cases h
    exact ⟨hI, iff_of_true ⟨hP.requested, hP.refused⟩ (by simp [Sendable, packet?])⟩
  | peerEnds =>
    cases h
    exact ⟨hI, iff_of_true ⟨hP.requested, hP.refused⟩ (by simp [Sendable, packet?])⟩
  | lose =>
    cases h
    exact ⟨hI, iff_of_true ⟨hP.requested, hP.refused⟩ (by simp [Sendable, packet?])⟩
  | querier b =>
    cases b with
    | query data =>
      cases h
      simpa [Sendable, packet?, query] using sendQuery_step hI hP
        (q := { s.querier with responseCallback := some s.querier.calls }) rfl rfl (.inl rfl)
    | queryWith appID openSocketID data =>
      cases h
      simpa [Sendable, packet?, queryWith] using sendQuery_step hI hP
        (q := { s.querier with responseCallback := some s.querier.calls }) rfl rfl (.inl rfl)
    | querySync data =>
      cases h
      simpa [Sendable, packet?, querySync] using sendQuery_step hI hP
        (q := { s.querier with pendingResolve := some s.querier.calls, rejected := _ }) rfl rfl (.inr rfl)
    | setConfig | handleData | returns | throws => exact hquiet _ h rfl

/-- **A waiter has its request on the wire, and a call without one has reported an error and changed no slot,**
throughout a run exactly if every call is made on a connected client whose peer has not ended, with a packet of up to
16 MiB. -/
theorem accounted_throughout_iff {appID openSocketID : Option (List Char)} {as : List ClientAct} {t : QuerierClient}
    (h : system.Runs (fun _ _ => True) (start appID openSocketID) as t) :
    system.Throughout Accounted (start appID openSocketID) as ↔ system.Runs Sendable (start appID openSocketID) as t := by
  refine h.throughout_iff_runs (I := fun s => Numbered s.querier)
    (fun hI hP hstep => accounted_step hI hP hstep) ?_ ⟨?_, ?_⟩
  · simp [Numbered, start, OpenSocketQuerier.start]
  · simp [start, OpenSocketQuerier.start]
  · simp [start]

/-- Both kinds of calls behind the connect, a response for each, the peer's end and the loss of the connection. -/
def connectedFirst : List ClientAct :=
  [.connect, .querier (.query (.string ['a'])), .querier (.handleData [65]), .querier .returns,
    .querier (.querySync (.buffer [1])), .peerEnds, .querier (.handleData [66]), .lose]

theorem accounted_throughout_iff_connected : ∃ t,
    system.Runs (fun _ _ => True) (start (some ['a']) (some ['o'])) connectedFirst t ∧
    system.Throughout Accounted (start (some ['a']) (some ['o'])) connectedFirst := by
  obtain ⟨t, hsend, -⟩ := system.exists_run Sendable (start (some ['a']) (some ['o'])) connectedFirst
    (fun t => t.querier.settled.length = 2) (by decide +kernel)
  have hrun := hsend.mono fun _ _ _ => trivial
  exact ⟨t, hrun, (accounted_throughout_iff hrun).2 hsend⟩

/-- The first callback waits, its request was never written, and nothing was reported. -/
def Stray (t : QuerierClient) : Prop :=
  t.querier.responseCallback = some 0 ∧ t.querier.requests = [] ∧ ∀ a ∈ t.attempts, a.sending.reported = false

instance (t : QuerierClient) : Decidable (Stray t) := inferInstanceAs (Decidable (_ ∧ _ ∧ _))

/-- A query right after construction, and one between the peer's `end` and `close`. -/
theorem waiter_without_request :
    (∃ t, system.Runs (fun _ _ => True) (start (some ['a']) (some ['o']))
      [.querier (.query (.string ['x'])), .connect] t ∧ Stray t) ∧
    ∃ t, system.Runs (fun _ _ => True) (start (some ['a']) (some ['o']))
      [.connect, .peerEnds, .querier (.query (.string ['x']))] t ∧ Stray t :=
  ⟨system.exists_run _ _ _ Stray (by decide +kernel), system.exists_run _ _ _ Stray (by decide +kernel)⟩

end QuerierClient
end KnotLink.Js
