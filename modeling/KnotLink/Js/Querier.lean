import KnotLink.Lib.Run
import KnotLink.Lib.Text
import KnotLink.Frame
/-!
# JavaScript `OpenSocketQuerier` (OpenSocketQuerier.js), on a connected client

One thread runs everything. `_handleData` calls the callback before it looks at the promise, and the callback
may call the querier again: while a callback runs the step is not over, `handling` holds its result. Calls of
`query`, `queryWith` and `querySync` are numbered in the order in which they are made.

One slot for callbacks and one for promises serve all requests (OpenSocketQuerier.js:20-21).
-/
namespace KnotLink.Js
open Lib

/-- The `data` of a call, a string or a `Buffer`. -/
inductive Data where
  | string (text : List Char)
  | buffer (bytes : Bytes)
  deriving DecidableEq, Repr

/-- `Buffer.from(data, 'utf-8')` for a string. -/
def Data.toBuffer : Data → Bytes
  | string text => Utf8.encode text
  | buffer bytes => bytes

structure OpenSocketQuerier where
  appID : Option (List Char)
  openSocketID : Option (List Char)
  responseCallback : Option Nat
  pendingResolve : Option Nat
  /-- How many calls were made. -/
  calls : Nat
  /-- The packets written, each with its call. -/
  requests : List (Nat × Bytes)
  /-- Callbacks called and promises resolved, with the result they got. -/
  settled : List (Nat × List Char)
  /-- Calls of `querySync` whose promise is rejected, since `_sendQuery` threw. -/
  rejected : List Nat
  /-- The arguments of `_handleData`, in order. -/
  handled : List Bytes
  /-- The result with which a callback runs now. -/
  handling : Option (List Char)
  deriving DecidableEq, Repr

inductive QuerierAct where
  | setConfig (appID openSocketID : Option (List Char))
  | query (data : Data)
  | queryWith (appID openSocketID : Option (List Char)) (data : Data)
  | querySync (data : Data)
  /-- `_handleData`, up to its end or into the callback. -/
  | handleData (data : Bytes)
  /-- The callback returns and `_handleData` goes on. -/
  | returns
  /-- The callback throws, and so does `_handleData`. -/
  | throws
  deriving DecidableEq, Repr

namespace OpenSocketQuerier

def start (appID openSocketID : Option (List Char)) : OpenSocketQuerier :=
  ⟨appID, openSocketID, none, none, 0, [], [], [], [], none⟩

/-- `${id}` in a template. -/
def template : Option (List Char) → List Char
  | some id => id
  | none => "null".toList

/-- The packet of `_sendQuery` (OpenSocketQuerier.js:87-89). -/
def packet (appID openSocketID : Option (List Char)) (data : Bytes) : Bytes :=
  Utf8.encode (template appID ++ "-".toList ++ template openSocketID ++ "&*&".toList) ++ data

/-- `send_data` throws where the packet is too long (TcpClient.js:55-57). -/
def TooLong (packet : Bytes) : Prop := packet.length > MAX_MSG_SIZE

instance (packet : Bytes) : Decidable (TooLong packet) := inferInstanceAs (Decidable (_ > _))

/-- `_sendQuery`, by the call that is made now. -/
def sendQuery (s : OpenSocketQuerier) (packet : Bytes) : OpenSocketQuerier :=
  { s with
    calls := s.calls + 1
    requests := if TooLong packet then s.requests else s.requests ++ [(s.calls, packet)] }

/-- The second half of `_handleData` (OpenSocketQuerier.js:108-114); a rejected promise stays rejected. -/
def resolvePending (s : OpenSocketQuerier) (result : List Char) : OpenSocketQuerier :=
  match s.pendingResolve with
  | some k => { s with
      pendingResolve := none
      settled := if k ∈ s.rejected then s.settled else s.settled ++ [(k, result)] }
  | none => s

def step (s : OpenSocketQuerier) : QuerierAct → Option OpenSocketQuerier
  | .setConfig appID openSocketID => some { s with appID, openSocketID }
  | .query data =>
    some (sendQuery { s with responseCallback := some s.calls } (packet s.appID s.openSocketID data.toBuffer))
  | .queryWith appID openSocketID data =>
    some (sendQuery { s with responseCallback := some s.calls } (packet appID openSocketID data.toBuffer))
  | .querySync data =>
    let packet := packet s.appID s.openSocketID data.toBuffer
    let rejected := if TooLong packet then s.rejected ++ [s.calls] else s.rejected
    some (sendQuery { s with pendingResolve := some s.calls, rejected } packet)
  | .handleData data =>
    match s.handling with
    | some _ => none
    | none =>
      let result := Utf8.decodeReplace data
      let s := { s with handled := s.handled ++ [data] }
      match s.responseCallback with
      | some k => some { s with responseCallback := none, settled := s.settled ++ [(k, result)], handling := some result }
      | none => some (resolvePending s result)
  | .returns =>
    match s.handling with
    | some result => some (resolvePending { s with handling := none } result)
    | none => none
  | .throws =>
    match s.handling with
    | some _ => some { s with handling := none }
    | none => none

def system : System OpenSocketQuerier QuerierAct := ⟨step⟩

variable {answer : Nat → Bytes} {s u : OpenSocketQuerier} {a : QuerierAct}

/-- What arrives is the answer to the next request written. -/
def InOrder (answer : Nat → Bytes) (s : OpenSocketQuerier) : QuerierAct → Prop
  | .handleData data => s.requests[s.handled.length]?.map (fun r => answer r.1) = some data
  | _ => True

instance (answer : Nat → Bytes) (s : OpenSocketQuerier) : (a : QuerierAct) → Decidable (InOrder answer s a)
  | .handleData data =>
    inferInstanceAs (Decidable (s.requests[s.handled.length]?.map (fun r => answer r.1) = some data))
  | .setConfig .. | .query _ | .queryWith .. | .querySync _ | .returns | .throws => inferInstanceAs (Decidable True)

/-- The promise that a response settles. -/
def promise (s : OpenSocketQuerier) : Option Nat := s.pendingResolve.filter (· ∉ s.rejected)

/-- Whom a response reaches first. -/
def waiter (s : OpenSocketQuerier) : Option Nat :=
  match s.responseCallback with
  | some k => some k
  | none => s.promise

/-- A response finds the request it answers as its waiter, and no promise is there when a callback returns. -/
def Matching (s : OpenSocketQuerier) : QuerierAct → Prop
  | .handleData _ => s.waiter = s.requests[s.handled.length]?.map Prod.fst
  | .returns => s.promise = none
  | _ => True

instance (s : OpenSocketQuerier) : (a : QuerierAct) → Decidable (Matching s a)
  | .handleData _ => inferInstanceAs (Decidable (s.waiter = s.requests[s.handled.length]?.map Prod.fst))
  | .returns => inferInstanceAs (Decidable (s.promise = none))
  | .setConfig .. | .query _ | .queryWith .. | .querySync _ | .throws => inferInstanceAs (Decidable True)

/-- The first requests with their responses, as many as there were responses. -/
def first (answer : Nat → Bytes) (s : OpenSocketQuerier) : List (Nat × List Char) :=
  (s.requests.take s.handled.length).map fun r => (r.1, Utf8.decodeReplace (answer r.1))

/-- Exactly these are settled, each once. -/
def FirstSettled (answer : Nat → Bytes) (s : OpenSocketQuerier) : Prop := s.settled.Perm (first answer s)

/-- No response without a request. -/
def Answering (s : OpenSocketQuerier) : Prop := s.handled.length ≤ s.requests.length

/-! ## One step -/

theorem requests_sendQuery (s : OpenSocketQuerier) (packet : Bytes) :
    ∃ rs, (s.sendQuery packet).requests = s.requests ++ rs := by
  simp only [sendQuery]
  split
  · exact ⟨[], (List.append_nil _).symm⟩
  · exact ⟨_, rfl⟩

theorem settled_resolvePending (s : OpenSocketQuerier) (result : List Char) :
    (s.resolvePending result).settled = s.settled ++ (s.promise.map fun k => (k, result)).toList := by
  unfold resolvePending promise
  cases s.pendingResolve with
  | none => simp
  | some k => by_cases hk : k ∈ s.rejected <;> simp [hk, Option.filter]

/-- Nothing else is touched. -/
theorem resolvePending_same (s : OpenSocketQuerier) (result : List Char) :
    (s.resolvePending result).handled = s.handled ∧ (s.resolvePending result).requests = s.requests := by
  unfold resolvePending
  cases s.pendingResolve <;> exact ⟨rfl, rfl⟩

/-- A step that only adds requests. -/
theorem FirstSettled.mono (hI : Answering s) (hP : FirstSettled answer s) (hh : u.handled = s.handled)
    (hs : u.settled = s.settled) {rs : List (Nat × Bytes)} (hr : u.requests = s.requests ++ rs) :
    Answering u ∧ FirstSettled answer u := by
  constructor
  · rw [Answering, hh, hr, List.length_append]
    exact Nat.le_add_right_of_le hI
  · rw [FirstSettled, first, hh, hr, hs, List.take_append_of_le_length hI]
    exact hP

/-- One more response settles one more call: the right one, or the wrong one. -/
theorem settle_iff (hP : FirstSettled answer s) {r : Nat × Bytes} (hr : s.requests[s.handled.length]? = some r)
    (hh : u.handled.length = s.handled.length + 1) (hreq : u.requests = s.requests) {k : Nat}
    (hs : u.settled = s.settled ++ [(k, Utf8.decodeReplace (answer r.1))]) : FirstSettled answer u ↔ k = r.1 := by
  have hfirst : first answer u = first answer s ++ [(r.1, Utf8.decodeReplace (answer r.1))] := by
    rw [first, hh, hreq, List.take_add_one, hr]
    simp [first]
  rw [FirstSettled, hfirst, hs]
  constructor
  · intro h
    have hcancel := (List.perm_append_left_iff _).1 (h.trans (hP.symm.append_right _))
    have := List.perm_singleton.1 hcancel
    simpa using this
  · rintro rfl
    exact hP.append_right _

theorem not_settled_of_length (h : u.settled.length ≠ (first answer u).length) : ¬ FirstSettled answer u :=
  fun hP => h hP.length_eq

theorem length_first (hI : Answering s) : (first answer s).length = s.handled.length := by
  simp only [first, List.length_map, List.length_take]
  exact Nat.min_eq_left hI

theorem handleData_step (hI : Answering s) (hP : FirstSettled answer s) {data : Bytes}
    (hok : InOrder answer s (.handleData data)) (h : step s (.handleData data) = some u) :
    Answering u ∧ (FirstSettled answer u ↔ Matching s (.handleData data)) := by
  obtain ⟨r, hr, rfl⟩ := Option.map_eq_some_iff.1 hok
  have hlt : s.handled.length < s.requests.length := (List.getElem?_eq_some_iff.1 hr).1
  have hu : u.handled.length = s.handled.length + 1 ∧ u.requests = s.requests ∧
      u.settled = s.settled ++ (s.waiter.map fun k => (k, Utf8.decodeReplace (answer r.1))).toList := by
    simp only [step] at h
    split at h
    · cases h
    · simp only [waiter]
      cases hc : s.responseCallback with
      | some k =>
        rw [hc] at h
        cases h
        simp
      | none =>
        rw [hc] at h
        cases h
        have hsame := resolvePending_same { s with responseCallback := none, handled := s.handled ++ [answer r.1] }
          (Utf8.decodeReplace (answer r.1))
        refine ⟨?_, hsame.2, settled_resolvePending _ _⟩
        rw [hsame.1, List.length_append, List.length_singleton]
  obtain ⟨hh, hreq, hs⟩ := hu
  have hA : Answering u := by
    rw [Answering, hh, hreq]
    exact hlt
  refine ⟨hA, ?_⟩
  rw [Matching, hr, Option.map_some]
  cases hw : s.waiter with
  | some k =>
    rw [hw] at hs
    rw [settle_iff hP hr hh hreq hs, Option.some.injEq]
  | none =>
    rw [hw] at hs
    refine iff_of_false (not_settled_of_length ?_) nofun
    rw [length_first hA, hh, hs]
    simp [hP.length_eq, length_first hI]

theorem returns_step (hI : Answering s) (hP : FirstSettled answer s) (h : step s .returns = some u) :
    Answering u ∧ (FirstSettled answer u ↔ Matching s .returns) := by
  simp only [step] at h
  split at h
  · rename_i result _
    cases h
    obtain ⟨hh, hreq⟩ := resolvePending_same { s with handling := none } result
    have hs : (resolvePending { s with handling := none } result).settled =
        s.settled ++ (s.promise.map fun k => (k, result)).toList := settled_resolvePending _ _
    have hA : Answering (resolvePending { s with handling := none } result) := by
      rw [Answering, hh, hreq]
      exact hI
    have hfirst : first answer (resolvePending { s with handling := none } result) = first answer s := by
      rw [first, hh, hreq]
      rfl
    refine ⟨hA, ?_⟩
    cases hp : s.promise with
    | none =>
      rw [FirstSettled, hfirst, hs, hp]
      refine iff_of_true ?_ hp
      rw [Option.map_none, Option.toList_none, List.append_nil]
      exact hP
    | some k =>
      -- the response settles a second call
      refine iff_of_false (not_settled_of_length ?_) (by rw [Matching, hp]; nofun)
      rw [hfirst, hs, hp]
      simp [hP.length_eq]
  · cases h

theorem settled_step (hI : Answering s) (hP : FirstSettled answer s) (hok : InOrder answer s a) (h : step s a = some u) :
    Answering u ∧ (FirstSettled answer u ↔ Matching s a) := by
  have htrue : Matching s a → Answering u ∧ FirstSettled answer u →
      Answering u ∧ (FirstSettled answer u ↔ Matching s a) :=
    fun hm hu => ⟨hu.1, iff_of_true hu.2 hm⟩
  cases a with
  | setConfig appID openSocketID =>
    cases h
    exact htrue trivial ⟨hI, hP⟩
  | query data =>
    cases h
    obtain ⟨rs, hrs⟩ := requests_sendQuery { s with responseCallback := some s.calls }
      (packet s.appID s.openSocketID data.toBuffer)
    exact htrue trivial (hP.mono hI rfl rfl hrs)
  | queryWith appID openSocketID data =>
    cases h
    obtain ⟨rs, hrs⟩ := requests_sendQuery { s with responseCallback := some s.calls }
      (packet appID openSocketID data.toBuffer)
    exact htrue trivial (hP.mono hI rfl rfl hrs)
  | querySync data =>
    cases h
    obtain ⟨rs, hrs⟩ := requests_sendQuery { s with pendingResolve := some s.calls, rejected := _ }
      (packet s.appID s.openSocketID data.toBuffer)
    exact htrue trivial (hP.mono hI rfl rfl hrs)
  | handleData data => exact handleData_step hI hP hok h
  | returns => exact returns_step hI hP h
  | throws =>
    simp only [step] at h
    split at h
    · cases h
      exact htrue trivial ⟨hI, hP⟩
    · cases h

/-- **After every response exactly the requests answered so far are settled, each once and with its own response,
throughout a run, exactly if** each response found its own request as its waiter and no callback returned to a
promise. -/
theorem firstSettled_throughout_iff {appID openSocketID : Option (List Char)} {as : List QuerierAct}
    {t : OpenSocketQuerier} (h : system.Runs (InOrder answer) (start appID openSocketID) as t) :
    system.Throughout (FirstSettled answer) (start appID openSocketID) as ↔
      system.Runs (fun s a => InOrder answer s a ∧ Matching s a) (start appID openSocketID) as t :=
  h.throughout_iff (fun hI hP hok hst => settled_step hI hP hok hst) (Nat.le_refl 0) .nil

/-- A callback that makes the next request. -/
def chained : List QuerierAct :=
  [.query (.string ['a']), .handleData [65], .query (.string ['b']), .returns, .handleData [66], .returns,
    .querySync (.buffer [1]), .handleData [67]]

theorem firstSettled_throughout_iff_chained : ∃ t,
    system.Runs (fun s a => InOrder (fun k => [UInt8.ofNat (k + 65)]) s a ∧ Matching s a) (start none none) chained t ∧
    system.Throughout (FirstSettled fun k => [UInt8.ofNat (k + 65)]) (start none none) chained := by
  obtain ⟨t, hrun, -⟩ := system.exists_run
    (fun s a => InOrder (fun k => [UInt8.ofNat (k + 65)]) s a ∧ Matching s a) (start none none)
    chained (fun _ => True) (by decide +kernel)
  exact ⟨t, hrun, (firstSettled_throughout_iff (hrun.mono fun _ _ h => h.1)).2 hrun⟩

/-- A query and then a promise: the first response settles both. -/
theorem both_settled : ∃ as t, system.Runs (InOrder fun k => [UInt8.ofNat (k + 65)]) (start none none) as t ∧
    t.handling = none ∧ ¬ FirstSettled (fun k => [UInt8.ofNat (k + 65)]) t := by
  obtain ⟨t, hrun, hidle, hs, hh⟩ := system.exists_run (InOrder fun k => [UInt8.ofNat (k + 65)]) (start none none)
    [.query (.string ['a']), .querySync (.string ['b']), .handleData [65], .returns]
    (fun t => t.handling = none ∧ t.settled.length = 2 ∧ (first (fun k => [UInt8.ofNat (k + 65)]) t).length = 1)
    (by decide +kernel)
  refine ⟨_, t, hrun, hidle, not_settled_of_length ?_⟩
  rw [hs, hh]
  decide

end OpenSocketQuerier
end KnotLink.Js
