import KnotLink.Lib.Waits
import KnotLink.Connections
/-!
# Calls of `query_l` inside others, in Qt and PyQt

The event loop of `query_l` runs the application's other slots, and one of them may call `query_l` again. Messages
are read where an event loop runs: the application's, or that of the innermost call until it has been told to quit
(no `readyRead` comes again inside a slot of `readyRead`). `receivedData` has one more slot for each call.
-/
namespace KnotLink
open Lib QtSocket

/-- The locals of a call of `query_l`, with its place among the requests and the messages. -/
structure QueryCall (τ : Type) where
  wait : Wait
  result : Option τ
  quit : Bool
  deriving DecidableEq, Repr

/-- What the slot of a call does to its locals. -/
def QueryCall.answer {τ : Type} (call : QueryCall τ) (text : Option τ) : QueryCall τ :=
  { call with result := text, quit := true }

/-- A querier with its calls, innermost first. -/
structure QueryCalls (κ τ : Type) where
  querier : κ
  calls : List (QueryCall τ)
  /-- An exception has left a slot. -/
  aborted : Bool
  deriving DecidableEq, Repr

/-- A call that is over, and how many messages had come then. -/
structure Returned (τ : Type) where
  wait : Wait
  seen : Nat
  result : Option τ
  deriving DecidableEq, Repr

/-- A querier of `QTcpSocket` clients. -/
structure NestedSdk (κ τ ρ : Type) where
  frameEnd : FrameEnd
  text : Bytes → Option τ
  receivedData : QueryCalls κ τ → Bytes → QueryCalls κ τ
  query : TcpClient κ → ρ → Option (TcpClient κ)
  /-- `query_l` up to its event loop. -/
  ask : TcpClient κ → ρ → Option (TcpClient κ)
  /-- `query_l` behind its event loop. -/
  finish : κ → κ
  queryPending : κ → Bool
  /-- The flag stays set until the call returns. -/
  keeps : Bool
  dataBackA : κ → List Bytes
  dataBack : κ → List τ
  stays : ∀ {s m}, s.aborted = true → (receivedData s m).aborted = true
  waits : ∀ {s m}, (receivedData s m).calls.map (·.wait) = s.calls.map (·.wait)
  received : ∀ {s m}, (receivedData s m).aborted = false →
    (receivedData s m).calls = s.calls.map (·.answer (text m)) ∧
    queryPending (receivedData s m).querier = (queryPending s.querier && (keeps || s.calls.isEmpty)) ∧
    dataBackA (receivedData s m).querier = dataBackA s.querier ++ (if queryPending s.querier then [] else [m]) ∧
    dataBack (receivedData s m).querier =
      dataBack s.querier ++ (if queryPending s.querier then [] else (text m).toList)
  queried : ∀ {s u data}, query s data = some u →
    u.connected = s.connected ∧ u.buffer = s.buffer ∧ u.slots = s.slots
  asked : ∀ {s u data}, ask s data = some u → u.connected = s.connected ∧ u.buffer = s.buffer ∧
    queryPending u.slots = true ∧ dataBackA u.slots = dataBackA s.slots ∧ dataBack u.slots = dataBack s.slots
  finished : ∀ q, (keeps = true ∨ queryPending q = false → queryPending (finish q) = false) ∧
    dataBackA (finish q) = dataBackA q ∧ dataBack (finish q) = dataBack q

/-- The event loop of the innermost call runs, or the application's. -/
def QueryCalls.Running {κ τ : Type} (q : QueryCalls κ τ) : Prop := ∀ call ∈ q.calls.head?, call.quit = false

instance {κ τ : Type} (q : QueryCalls κ τ) : Decidable q.Running := inferInstanceAs (Decidable (∀ call ∈ _, _))

def QueryCalls.waits {κ τ : Type} (q : QueryCalls κ τ) : List Wait := q.calls.map (·.wait)

/-- A client of which calls are made, what has arrived at it, the requests, and the calls that are over. -/
structure Nested (κ τ : Type) where
  client : TcpClient (QueryCalls κ τ)
  stream : Bytes
  asked : Nat
  returned : List (Returned τ)
  /-- The messages that came when no call was waiting for its first one. -/
  unclaimed : List Bytes
  deriving DecidableEq, Repr

inductive NestedAct (ρ : Type) where
  | query (data : ρ)
  | queryL (data : ρ)
  | readyRead (newData : Bytes)
  /-- The innermost call returns. -/
  | ret
  | peerCloses
  deriving DecidableEq, Repr

namespace Nested
variable {κ τ ρ : Type}

/-- A client behind `init`. -/
def start (client : TcpClient κ) : Nested κ τ := ⟨client.withSlots ⟨client.slots, [], false⟩, [], 0, [], []⟩

/-- The messages so far. -/
def came (s : Nested κ τ) : List Bytes := messages s.stream

/-- The messages that a chunk completes. -/
def batch (s : Nested κ τ) (newData : Bytes) : List Bytes := (messages (s.stream ++ newData)).drop s.came.length

/-- Those of a batch that `dataRecv` does not hold back. -/
def leftOver (queryPending keeps : Bool) (ms : List Bytes) : List Bytes :=
  if queryPending then if keeps then [] else ms.tail else ms

variable (sdk : NestedSdk κ τ ρ)

def step (s : Nested κ τ) : NestedAct ρ → Option (Nested κ τ)
  | .query data =>
    if s.client.slots.aborted then none
    else (sdk.query (s.client.withSlots s.client.slots.querier) data).map fun u =>
      { s with client := u.withSlots { s.client.slots with querier := u.slots }, asked := s.asked + 1 }
  | .queryL data =>
    if s.client.slots.aborted then none
    else (sdk.ask (s.client.withSlots s.client.slots.querier) data).map fun u =>
      { s with
        client := u.withSlots { s.client.slots with
          querier := u.slots
          calls := ⟨⟨s.asked + 1, s.came.length⟩, none, false⟩ :: s.client.slots.calls }
        asked := s.asked + 1 }
  | .readyRead newData =>
    if s.client.slots.aborted = false ∧ s.client.connected ∧ newData ≠ [] ∧ s.client.slots.Running then
      some { s with
        client := s.client.readyRead sdk.frameEnd sdk.receivedData newData
        stream := s.stream ++ newData
        unclaimed := s.unclaimed ++ leftOver (!s.client.slots.calls.isEmpty) sdk.keeps (s.batch newData) }
    else none
  | .ret =>
    match s.client.slots.calls with
    | [] => none
    | call :: calls =>
      if s.client.slots.aborted = false ∧ call.quit then
        some { s with
          client := s.client.withSlots { s.client.slots with querier := sdk.finish s.client.slots.querier, calls }
          returned := s.returned ++ [⟨call.wait, s.came.length, call.result⟩] }
      else none
  | .peerCloses => if s.client.connected then some { s with client := s.client.peerCloses } else none

def system : System (Nested κ τ) (NestedAct ρ) := ⟨step sdk⟩

variable {sdk} {s t u : Nested κ τ} {q : QueryCalls κ τ}

/-! ## A batch of messages -/

theorem foldl_waits (q : QueryCalls κ τ) (ms : List Bytes) : (ms.foldl sdk.receivedData q).waits = q.waits := by
  induction ms generalizing q with
  | nil => rfl
  | cons m ms ih => exact (ih _).trans sdk.waits

theorem foldl_aborted (h : q.aborted = true) (ms : List Bytes) : (ms.foldl sdk.receivedData q).aborted = true := by
  induction ms generalizing q with
  | nil => exact h
  | cons m ms ih => exact ih (sdk.stays h)

/-- What the calls know behind a batch, and what of it was emitted. -/
theorem foldl_received {ms : List Bytes} (h : (ms.foldl sdk.receivedData q).aborted = false) :
    let t := ms.foldl sdk.receivedData q
    let p := sdk.queryPending q.querier
    let k := sdk.keeps || q.calls.isEmpty
    t.calls = (match ms.getLast? with
      | none => q.calls
      | some m => q.calls.map (·.answer (sdk.text m))) ∧
    sdk.queryPending t.querier = (p && (k || ms.isEmpty)) ∧
    sdk.dataBackA t.querier = sdk.dataBackA q.querier ++ leftOver p k ms ∧
    sdk.dataBack t.querier = sdk.dataBack q.querier ++ (leftOver p k ms).filterMap sdk.text := by
  induction ms generalizing q with
  | nil => simp [leftOver]
  | cons m ms ih =>
    have hm : (sdk.receivedData q m).aborted = false := by
      by_contra ha
      have hdown : (ms.foldl sdk.receivedData (sdk.receivedData q m)).aborted = true :=
        foldl_aborted (by simpa using ha) ms
      rw [List.foldl_cons, hdown] at h
      cases h
    obtain ⟨hcalls, hpending, hA, hB⟩ := sdk.received hm
    obtain ⟨hcalls', hpending', hA', hB'⟩ := @ih (sdk.receivedData q m) h
    have hempty : (sdk.receivedData q m).calls.isEmpty = q.calls.isEmpty := by simp [hcalls]
    rw [hempty, hpending] at hpending' hA' hB'
    refine ⟨?_, ?_, ?_, ?_⟩
    · rw [List.foldl_cons, hcalls', List.getLast?_cons]
      cases ms.getLast? with
      | none => exact hcalls
      | some m' => simp [hcalls, QueryCall.answer]
    · rw [List.foldl_cons, hpending']
      cases sdk.queryPending q.querier <;> cases (sdk.keeps || q.calls.isEmpty) <;> simp
    · rw [List.foldl_cons, hA', hA, List.append_assoc]
      cases sdk.queryPending q.querier <;> cases (sdk.keeps || q.calls.isEmpty) <;> simp [leftOver]
    · have hcons : (m :: ms).filterMap sdk.text = (sdk.text m).toList ++ ms.filterMap sdk.text := by
        cases hm : sdk.text m <;> simp [hm]
      rw [List.foldl_cons, hB', hB, List.append_assoc]
      cases sdk.queryPending q.querier <;> cases (sdk.keeps || q.calls.isEmpty) <;> simp [leftOver, hcons]

/-! ## The calls and the messages -/

/-- The call has got the last message if one has come since it began. -/
def Told (sdk : NestedSdk κ τ ρ) (ms : List Bytes) (call : QueryCall τ) : Prop :=
  call.quit = decide (call.wait.since < ms.length) ∧
    (call.wait.since < ms.length → call.result = ms.getLast?.bind sdk.text)

/-- What holds while the process lives. -/
structure Alive (sdk : NestedSdk κ τ ρ) (q : QueryCalls κ τ) (ms unclaimed : List Bytes) : Prop where
  calls : ∀ call ∈ q.calls, Told sdk ms call
  running : q.Running → sdk.queryPending q.querier = !q.calls.isEmpty
  quit : ¬ q.Running → sdk.keeps = true ∨ sdk.queryPending q.querier = false
  dataBackA : sdk.dataBackA q.querier = unclaimed
  dataBack : sdk.dataBack q.querier = unclaimed.filterMap sdk.text

structure Inv (sdk : NestedSdk κ τ ρ) (s : Nested κ τ) : Prop where
  split : ∃ ms r, wire.Split s.stream ms r ∧ (s.client.connected = true → s.client.buffer = r)
  since : s.client.slots.waits.Pairwise fun w w' => w'.since ≤ w.since
  waits : ∀ w ∈ s.client.slots.waits, 0 < w.number ∧ w.since ≤ s.came.length
  alive : s.client.slots.aborted = false → Alive sdk s.client.slots s.came s.unclaimed
  returned : ∀ d ∈ s.returned, 0 < d.wait.number ∧ d.wait.since < d.seen ∧ d.seen ≤ s.came.length ∧
    ∃ m, s.came[d.seen - 1]? = some m ∧ d.result = sdk.text m

/-- A call has been told exactly if it has been told to quit. -/
theorem Told.quit_iff {ms : List Bytes} {call : QueryCall τ} (h : Told sdk ms call) :
    call.quit = true ↔ call.wait.since < ms.length := by
  rw [h.1, decide_eq_true_eq]

theorem Alive.ask {ms unclaimed : List Bytes} (h : Alive sdk q ms unclaimed) {k : κ} {n : Nat}
    (hpending : sdk.queryPending k = true) (hA : sdk.dataBackA k = sdk.dataBackA q.querier)
    (hB : sdk.dataBack k = sdk.dataBack q.querier) :
    Alive sdk { q with querier := k, calls := ⟨⟨n, ms.length⟩, none, false⟩ :: q.calls } ms unclaimed := by
  have hrunning : QueryCalls.Running { q with querier := k, calls := ⟨⟨n, ms.length⟩, none, false⟩ :: q.calls } := by
    intro call hcall
    obtain rfl := Option.some.inj hcall
    rfl
  refine ⟨fun call hcall => ?_, fun _ => hpending, fun hnot => absurd hrunning hnot, hA.trans h.dataBackA,
    hB.trans h.dataBack⟩
  rcases List.mem_cons.1 hcall with rfl | hcall
  · simp [Told]
  · exact h.calls call hcall

theorem Alive.received {ms unclaimed new : List Bytes} (h : Alive sdk q ms unclaimed) (hrunning : q.Running)
    (hsince : ∀ w ∈ q.waits, w.since ≤ ms.length) (halive : (new.foldl sdk.receivedData q).aborted = false) :
    Alive sdk (new.foldl sdk.receivedData q) (ms ++ new)
      (unclaimed ++ leftOver (!q.calls.isEmpty) sdk.keeps new) := by
  obtain ⟨hcalls, hpending, hA, hB⟩ := foldl_received halive
  have hleft : leftOver (sdk.queryPending q.querier) (sdk.keeps || q.calls.isEmpty) new =
      leftOver (!q.calls.isEmpty) sdk.keeps new := by
    rw [h.running hrunning]
    cases q.calls.isEmpty <;> simp [leftOver]
  rw [hleft] at hA hB
  rw [h.running hrunning] at hpending
  rw [h.dataBackA] at hA
  rw [h.dataBack, ← List.filterMap_append] at hB
  rcases List.eq_nil_or_concat new with rfl | ⟨init, m, rfl⟩
  · refine ⟨?_, fun _ => ?_, fun hnot => absurd hrunning hnot, hA, hB⟩
    · simpa using h.calls
    · exact h.running hrunning
  · simp only [List.concat_eq_append] at hcalls hpending hA hB ⊢
    rw [List.getLast?_concat] at hcalls
    refine ⟨fun call hcall => ?_, fun hrun => ?_, fun hnot => ?_, hA, hB⟩
    · rw [hcalls] at hcall
      obtain ⟨old, hold, rfl⟩ := List.mem_map.1 hcall
      have hle := hsince old.wait (List.mem_map_of_mem hold)
      have hlt : old.wait.since < (ms ++ (init ++ [m])).length := by
        simp only [List.length_append, List.length_singleton]
        omega
      refine ⟨?_, fun _ => ?_⟩
      · simpa [QueryCall.answer] using hlt
      · rw [← List.append_assoc, List.getLast?_concat]
        rfl
    · have hnil : q.calls = [] := by
        rcases hq : q.calls with _ | ⟨call, calls⟩
        · rfl
        · rw [hq] at hcalls
          have hquit := hrun (call.answer (sdk.text m)) (by rw [hcalls]; rfl)
          cases hquit
      rw [hpending, hcalls, hnil]
      rfl
    · rw [hpending]
      cases sdk.keeps <;> cases q.calls.isEmpty <;> simp

/-- The innermost call returns; those around it have been told too. -/
theorem Alive.ret {ms unclaimed : List Bytes} (h : Alive sdk q ms unclaimed) {call : QueryCall τ}
    {calls : List (QueryCall τ)} (hq : q.calls = call :: calls) (hquit : call.quit = true)
    (hsince : q.waits.Pairwise fun w w' => w'.since ≤ w.since) :
    Alive sdk { q with querier := sdk.finish q.querier, calls } ms unclaimed := by
  obtain ⟨hpending, hA, hB⟩ := sdk.finished q.querier
  have hnot : ¬ q.Running := fun hrun => by
    rw [hrun call (by rw [hq]; rfl)] at hquit
    cases hquit
  have hcleared := hpending (h.quit hnot)
  refine ⟨fun c hc => h.calls c (hq ▸ List.mem_cons_of_mem _ hc), fun hrun => ?_, fun _ => .inr hcleared,
    hA.trans h.dataBackA, hB.trans h.dataBack⟩
  rcases calls with _ | ⟨outer, calls⟩
  · exact hcleared
  · -- the outer call began earlier
    have hin : outer ∈ q.calls := by simp [hq]
    have hlt := (h.calls call (by simp [hq])).quit_iff.1 hquit
    have hle : outer.wait.since ≤ call.wait.since := by
      rw [QueryCalls.waits, hq] at hsince
      exact List.rel_of_pairwise_cons hsince (by simp)
    have htold := (h.calls outer hin).quit_iff.2 (Nat.lt_of_le_of_lt hle hlt)
    rw [hrun outer rfl] at htold
    cases htold

/-! ## One step -/

theorem query_cases {data : ρ} (h : step sdk s (.query data) = some u) :
    ∃ c : TcpClient (QueryCalls κ τ), c.connected = s.client.connected ∧ c.buffer = s.client.buffer ∧
      c.slots = s.client.slots ∧ u = { s with client := c, asked := s.asked + 1 } := by
  simp only [step] at h
  split at h
  · cases h
  · obtain ⟨c, hc, rfl⟩ := Option.map_eq_some_iff.1 h
    obtain ⟨hconn, hbuf, hslots⟩ := sdk.queried hc
    refine ⟨_, hconn, hbuf, ?_, rfl⟩
    change { s.client.slots with querier := c.slots } = s.client.slots
    rw [hslots]
    rfl

theorem queryL_cases {data : ρ} (h : step sdk s (.queryL data) = some u) :
    ∃ (c : TcpClient (QueryCalls κ τ)) (k : κ), s.client.slots.aborted = false ∧
      c.connected = s.client.connected ∧ c.buffer = s.client.buffer ∧ sdk.queryPending k = true ∧
      sdk.dataBackA k = sdk.dataBackA s.client.slots.querier ∧ sdk.dataBack k = sdk.dataBack s.client.slots.querier ∧
      c.slots = { s.client.slots with
        querier := k
        calls := ⟨⟨s.asked + 1, s.came.length⟩, none, false⟩ :: s.client.slots.calls } ∧
      u = { s with client := c, asked := s.asked + 1 } := by
  simp only [step] at h
  split at h
  · cases h
  · rename_i halive
    obtain ⟨c, hc, rfl⟩ := Option.map_eq_some_iff.1 h
    obtain ⟨hconn, hbuf, hpending, hA, hB⟩ := sdk.asked hc
    exact ⟨_, c.slots, by simpa using halive, hconn, hbuf, hpending, hA, hB, rfl, rfl⟩

theorem ret_cases (h : step sdk s .ret = some u) : ∃ call calls, s.client.slots.calls = call :: calls ∧
    s.client.slots.aborted = false ∧ call.quit = true ∧ u = { s with
      client := s.client.withSlots { s.client.slots with querier := sdk.finish s.client.slots.querier, calls }
      returned := s.returned ++ [⟨call.wait, s.came.length, call.result⟩] } := by
  simp only [step] at h
  split at h
  · cases h
  · rename_i call calls hcalls
    split at h
    · rename_i hif
      exact ⟨call, calls, hcalls, hif.1, hif.2, (Option.some.inj h).symm⟩
    · cases h

/-- What a chunk does: the slots work on the messages it completes. -/
theorem readyRead_cases {newData : Bytes} (h : step sdk s (.readyRead newData) = some u)
    (hsplit : ∃ ms r, wire.Split s.stream ms r ∧ (s.client.connected = true → s.client.buffer = r)) :
    s.client.slots.aborted = false ∧ s.client.slots.Running ∧ u.came = s.came ++ s.batch newData ∧
      u.client.slots = (s.batch newData).foldl sdk.receivedData s.client.slots ∧
      (∃ ms r, wire.Split u.stream ms r ∧ (u.client.connected = true → u.client.buffer = r)) ∧
      u.unclaimed = s.unclaimed ++ leftOver (!s.client.slots.calls.isEmpty) sdk.keeps (s.batch newData) ∧
      u.asked = s.asked ∧ u.returned = s.returned := by
  simp only [step] at h
  split at h
  · rename_i hif
    obtain ⟨halive, hconn, hne, hrunning⟩ := hif
    cases h
    obtain ⟨ms, r, hs, hbuf⟩ := hsplit
    obtain ⟨ns, r', hns⟩ := wire.split_exists (r ++ newData)
    have hcame : messages (s.stream ++ newData) = s.came ++ ns.filter isMessage := by
      rw [messages_split (hs.append hns), came, messages_split hs, List.filter_append]
    have hbatch : s.batch newData = ns.filter isMessage := by rw [batch, hcame, List.drop_left]
    have hworks : TcpClient.Works sdk.receivedData s.client.slots
        (s.client.readyRead sdk.frameEnd sdk.receivedData newData)
        ((s.client.withSlots []).readyRead sdk.frameEnd TcpClient.record newData) :=
      TcpClient.works_readyRead (show TcpClient.Works _ _ s.client (s.client.withSlots []) from rfl) newData
    obtain ⟨hgot, hrest⟩ := Connections.readyRead_split (c := s.client.withSlots []) sdk.frameEnd hconn hne
      (by rw [show (s.client.withSlots ([] : List Bytes)).buffer = r from hbuf hconn]; exact hns)
    refine ⟨halive, hrunning, by rw [hbatch]; exact hcame, ?_, ⟨_, _, hs.append hns, fun hup => ?_⟩, rfl, rfl, rfl⟩
    · rw [hbatch]
      refine (congrArg TcpClient.slots hworks).trans ?_
      rw [hgot]
      rfl
    · exact (congrArg TcpClient.buffer hworks).trans (hrest ((congrArg TcpClient.connected hworks).symm.trans hup))
  · cases h

theorem inv_step (hI : Inv sdk s) {a : NestedAct ρ} (h : step sdk s a = some u) : Inv sdk u := by
  cases a with
  | query data =>
    obtain ⟨c, hconn, hbuf, hslots, rfl⟩ := query_cases h
    obtain ⟨ms, r, hs, hb⟩ := hI.split
    refine ⟨⟨ms, r, hs, fun hup => hbuf.trans (hb (hconn.symm.trans hup))⟩, ?_, ?_, ?_, hI.returned⟩
    · exact hslots ▸ hI.since
    · exact hslots ▸ hI.waits
    · exact hslots ▸ hI.alive
  | queryL data =>
    obtain ⟨c, k, halive, hconn, hbuf, hpending, hA, hB, hslots, rfl⟩ := queryL_cases h
    obtain ⟨ms, r, hs, hb⟩ := hI.split
    refine ⟨⟨ms, r, hs, fun hup => hbuf.trans (hb (hconn.symm.trans hup))⟩, ?_, ?_, ?_, hI.returned⟩
    · change c.slots.waits.Pairwise _
      rw [hslots]
      exact List.pairwise_cons.2 ⟨fun w hw => (hI.waits w hw).2, hI.since⟩
    · intro w hw
      change w ∈ c.slots.waits at hw
      rw [hslots] at hw
      rcases List.mem_cons.1 hw with rfl | hw
      · exact ⟨Nat.succ_pos _, Nat.le_refl _⟩
      · exact hI.waits w hw
    · intro _
      change Alive sdk c.slots s.came s.unclaimed
      rw [hslots]
      exact (hI.alive halive).ask hpending hA hB
  | readyRead newData =>
    obtain ⟨halive, hrunning, hcame, hslots, hsplit, hunclaimed, hasked, hreturned⟩ := readyRead_cases h hI.split
    have hle : s.came.length ≤ u.came.length := by
      rw [hcame, List.length_append]
      omega
    have hwaits : u.client.slots.waits = s.client.slots.waits := by rw [hslots, foldl_waits]
    refine ⟨hsplit, by rw [hwaits]; exact hI.since, fun w hw => ?_, fun hup => ?_, fun d hd => ?_⟩
    · rw [hwaits] at hw
      exact ⟨(hI.waits w hw).1, Nat.le_trans (hI.waits w hw).2 hle⟩
    · rw [hslots] at hup ⊢
      rw [hcame, hunclaimed]
      exact (hI.alive halive).received hrunning (fun w hw => (hI.waits w hw).2) hup
    · rw [hreturned] at hd
      obtain ⟨hpos, hlt, hseen, m, hm, hres⟩ := hI.returned d hd
      refine ⟨hpos, hlt, Nat.le_trans hseen hle, m, ?_, hres⟩
      rw [hcame, List.getElem?_append_left (by omega)]
      exact hm
  | ret =>
    obtain ⟨call, calls, hcalls, halive, hquit, rfl⟩ := ret_cases h
    have hmem : call ∈ s.client.slots.calls := by simp [hcalls]
    have htail : s.client.slots.waits = call.wait :: calls.map (·.wait) := by rw [QueryCalls.waits, hcalls]; rfl
    obtain ⟨ms, r, hs, hb⟩ := hI.split
    refine ⟨⟨ms, r, hs, hb⟩, ?_, fun w hw => hI.waits w (htail ▸ List.mem_cons_of_mem _ hw), fun _ => ?_,
      fun d hd => ?_⟩
    · have hsince := hI.since
      rw [htail] at hsince
      exact hsince.of_cons
    · exact (hI.alive halive).ret hcalls hquit hI.since
    · rcases List.mem_append.1 hd with hd | hd
      · exact hI.returned d hd
      · obtain rfl := List.mem_singleton.1 hd
        have htold := (hI.alive halive).calls call hmem
        have hlt := htold.quit_iff.1 hquit
        obtain ⟨init, m, hlast⟩ : ∃ init m, s.came = init ++ [m] := by
          rcases List.eq_nil_or_concat s.came with hnil | ⟨init, m, hm⟩
          · rw [hnil] at hlt
            exact absurd hlt (Nat.not_lt_zero _)
          · exact ⟨init, m, by rw [hm, List.concat_eq_append]⟩
        refine ⟨(hI.waits _ (List.mem_map_of_mem hmem)).1, hlt, Nat.le_refl _, m, ?_, ?_⟩
        · change s.came[s.came.length - 1]? = some m
          simp [hlast]
        · refine (htold.2 hlt).trans ?_
          rw [hlast, List.getLast?_concat]
          rfl
  | peerCloses =>
    simp only [step] at h
    split at h
    · cases h
      obtain ⟨ms, r, hs, -⟩ := hI.split
      exact ⟨⟨ms, r, hs, nofun⟩, hI.since, hI.waits, hI.alive, hI.returned⟩
    · cases h

/-! ## The calls as waits -/

/-- What the calls come to. -/
def waits (s : Nested κ τ) : Waits :=
  ⟨s.asked, s.came.length, s.client.slots.waits, s.returned.map fun d => ⟨d.wait.number, d.seen⟩⟩

def waitAct (s : Nested κ τ) : NestedAct ρ → Option WaitAct
  | .query _ => some .send
  | .queryL _ => some .ask
  | .readyRead newData => some (.answers (s.batch newData).length)
  | .ret => some .ret
  | .peerCloses => none

/-- Only `query_l` asks, and the service answers in order, not ahead of the requests, and so that no chunk
completes two messages. -/
def Timely (s : Nested κ τ) : NestedAct ρ → Prop
  | .query _ => False
  | .readyRead newData =>
    (s.batch newData).length ≤ 1 ∧ s.came.length + (s.batch newData).length ≤ s.asked
  | .queryL _ | .ret | .peerCloses => True

/-- No call is made inside another. -/
def Flat (s : Nested κ τ) : NestedAct ρ → Prop
  | .queryL _ => s.client.slots.calls = []
  | .query _ | .readyRead _ | .ret | .peerCloses => True

instance (s : Nested κ τ) : (a : NestedAct ρ) → Decidable (Timely s a)
  | .query _ => inferInstanceAs (Decidable False)
  | .readyRead _ => inferInstanceAs (Decidable (_ ∧ _))
  | .queryL _ | .ret | .peerCloses => inferInstanceAs (Decidable True)

instance [DecidableEq τ] (s : Nested κ τ) : (a : NestedAct ρ) → Decidable (Flat s a)
  | .queryL _ => inferInstanceAs (Decidable (_ = _))
  | .query _ | .readyRead _ | .ret | .peerCloses => inferInstanceAs (Decidable True)

/-- A step is a step of the waits. -/
theorem waits_step (hI : Inv sdk s) {a : NestedAct ρ} (h : step sdk s a = some u) : match waitAct s a with
    | none => waits u = waits s ∧ Flat s a
    | some b => Waits.step (waits s) b = some (waits u) ∧ (Flat s a ↔ Waits.Flat (waits s) b) := by
  cases a with
  | query data =>
    obtain ⟨c, -, -, hslots, rfl⟩ := query_cases h
    refine ⟨?_, Iff.rfl⟩
    simp only [Waits.step, waits, hslots]
    rfl
  | queryL data =>
    obtain ⟨c, k, -, -, -, -, -, -, hslots, rfl⟩ := queryL_cases h
    refine ⟨?_, ?_⟩
    · simp only [Waits.step, waits, hslots]
      rfl
    · exact List.map_eq_nil_iff.symm
  | readyRead newData =>
    obtain ⟨halive, hrunning, hcame, hslots, -, -, hasked, hreturned⟩ := readyRead_cases h hI.split
    have hidle : (waits s).Idle := by
      intro w hw
      obtain ⟨call, hcall, rfl⟩ := Option.map_eq_some_iff.1 ((List.head?_map).symm.trans hw)
      have htold := ((hI.alive halive).calls call (List.mem_of_mem_head? hcall)).1
      rw [hrunning call hcall] at htold
      have hle := (hI.waits call.wait (List.mem_map_of_mem (List.mem_of_mem_head? hcall))).2
      have hnot := of_decide_eq_false htold.symm
      change call.wait.since = s.came.length
      omega
    refine ⟨?_, Iff.rfl⟩
    simp only [Waits.step, if_pos hidle]
    rw [waits, waits, hcame, hasked, hreturned, hslots, foldl_waits, List.length_append]
  | ret =>
    obtain ⟨call, calls, hcalls, halive, hquit, rfl⟩ := ret_cases h
    have hlt := ((hI.alive halive).calls call (by simp [hcalls])).quit_iff.1 hquit
    have hstack : (waits s).stack = call.wait :: calls.map (·.wait) := by
      simp only [waits, QueryCalls.waits, hcalls, List.map_cons]
    refine ⟨?_, Iff.rfl⟩
    simp only [Waits.step, hstack]
    rw [if_pos (show call.wait.since < (waits s).seen from hlt)]
    simp only [waits, List.map_append, List.map_cons, List.map_nil]
    rfl
  | peerCloses =>
    simp only [step] at h
    split at h
    · cases h
      exact ⟨rfl, trivial⟩
    · cases h

theorem timely_waitAct {a : NestedAct ρ} {b : WaitAct} (hact : waitAct s a = some b) (h : Timely s a) :
    Waits.Timely (waits s) b := by
  cases a <;> cases hact <;> exact h

theorem waits_start (client : TcpClient κ) : waits (start client : Nested κ τ) = Waits.start := by
  have hcame : (start client : Nested κ τ).came = [] := messages_of_drained drained_nil
  rw [waits, hcame]
  rfl

/-- A run is a run of the waits. -/
theorem waits_run {ok : Nested κ τ → NestedAct ρ → Prop} (ok' : Waits → WaitAct → Prop)
    (hok : ∀ {s a b}, waitAct s a = some b → ok s a → ok' (waits s) b) {as : List (NestedAct ρ)}
    (h : (system sdk).Runs ok s as t) (hI : Inv sdk s) : ∃ bs, Waits.system.Runs ok' (waits s) bs (waits t) ∧
      ((system sdk).Runs (fun s a => ok s a ∧ Flat s a) s as t ↔
        Waits.system.Runs (fun s b => ok' s b ∧ Waits.Flat s b) (waits s) bs (waits t)) := by
  refine h.abstract waitAct (fun {s a u} hI ha hst => ⟨inv_step hI hst, ?_⟩) hI
  have hw := waits_step hI hst
  cases hact : waitAct s a with
  | none => simpa only [hact] using hw
  | some b =>
    rw [hact] at hw
    exact ⟨hw.1, hok hact ha, hw.2⟩

/-! ## Runs -/

/-- The call has returned the answer to its own request, the service answering in the order of the requests. -/
def OwnAnswer (sdk : NestedSdk κ τ ρ) (s : Nested κ τ) (d : Returned τ) : Prop :=
  ∃ m, s.came[d.wait.number - 1]? = some m ∧ d.result = sdk.text m

theorem inv_start {client : TcpClient κ} (hb : client.buffer = []) (hp : sdk.queryPending client.slots = false)
    (hA : sdk.dataBackA client.slots = []) (hB : sdk.dataBack client.slots = []) : Inv sdk (start client) :=
  ⟨⟨[], [], .nil drained_nil, fun _ => hb⟩, .nil, nofun,
    fun _ => ⟨nofun, fun _ => hp, fun _ => .inr hp, hA, hB⟩, nofun⟩

theorem inv_run {as : List (NestedAct ρ)} {ok : Nested κ τ → NestedAct ρ → Prop}
    (h : (system sdk).Runs ok s as t) (hI : Inv sdk s) : Inv sdk t :=
  h.invariant (fun hI _ hst => inv_step hI hst) hI

/-- With distinct answers a call has its own exactly if as many had come as requests were sent up to its own. -/
theorem own_iff (hI : Inv sdk s) (hdistinct : (s.came.map sdk.text).Nodup) {d : Returned τ} (hd : d ∈ s.returned) :
    OwnAnswer sdk s d ↔ d.seen = d.wait.number := by
  obtain ⟨hpos, hlt, -, m, hm, hres⟩ := hI.returned d hd
  constructor
  · rintro ⟨m', hm', hres'⟩
    have hin : d.seen - 1 < (s.came.map sdk.text).length := by
      rw [List.length_map]
      exact (List.getElem?_eq_some_iff.1 hm).1
    have heq : d.seen - 1 = d.wait.number - 1 := by
      refine (List.getElem?_inj hin hdistinct).1 ?_
      rw [List.getElem?_map, List.getElem?_map, hm, hm', Option.map_some, Option.map_some, ← hres, ← hres']
    omega
  · intro hown
    exact ⟨m, hown ▸ hm, hres⟩

/-- What is known of the calls that are over, and of the messages that no call has used. -/
structure Answered (sdk : NestedSdk κ τ ρ) (s : Nested κ τ) : Prop where
  /-- A call has returned the last message that had come, and one had come since it began. -/
  latest : ∀ d ∈ s.returned, d.wait.since < d.seen ∧ ∃ m, s.came[d.seen - 1]? = some m ∧ d.result = sdk.text m
  /-- Of two nested calls not both have returned their own answers. -/
  nested : (s.came.map sdk.text).Nodup → ∀ d d', [d, d'].Sublist s.returned → d'.wait.number < d.wait.number →
    ¬ (OwnAnswer sdk s d ∧ OwnAnswer sdk s d')
  emitted : s.client.slots.aborted = false → sdk.dataBackA s.client.slots.querier = s.unclaimed ∧
    sdk.dataBack s.client.slots.querier = s.unclaimed.filterMap sdk.text

theorem answered_run {as : List (NestedAct ρ)} (h : (system sdk).Runs (fun _ _ => True) s as t) (hI : Inv sdk s)
    (hsorted : (waits s).Sorted) : Answered sdk t := by
  have ht := inv_run h hI
  obtain ⟨bs, hrun, -⟩ := waits_run (fun _ _ => True) (fun _ _ => trivial) h hI
  have hw := Waits.sorted_run hrun hsorted
  refine ⟨fun d hd => ?_, fun hdistinct d d' hin hnested => ?_, fun halive => ?_⟩
  · obtain ⟨-, hlt, -, hm⟩ := ht.returned d hd
    exact ⟨hlt, hm⟩
  · rw [own_iff ht hdistinct (hin.subset (by simp)), own_iff ht hdistinct (hin.subset (by simp))]
    have hends : [(⟨d.wait.number, d.seen⟩ : Ended), ⟨d'.wait.number, d'.seen⟩].Sublist (waits t).ended :=
      hin.map fun d : Returned τ => Ended.mk d.wait.number d.seen
    exact hw.not_both_own hends hnested
  · exact ⟨(ht.alive halive).dataBackA, (ht.alive halive).dataBack⟩

/-- **Every call returns its own answer exactly if none is made inside another.** -/
theorem own_iff_flat {as : List (NestedAct ρ)} (h : (system sdk).Runs Timely s as t) (hI : Inv sdk s)
    (hs : waits s = Waits.start) (hend : t.client.slots.calls = []) (hdistinct : (t.came.map sdk.text).Nodup) :
    (∀ d ∈ t.returned, OwnAnswer sdk t d) ↔ (system sdk).Runs (fun s a => Timely s a ∧ Flat s a) s as t := by
  obtain ⟨bs, hrun, hiff⟩ := waits_run Waits.Timely timely_waitAct h hI
  have ht := inv_run h hI
  rw [hs] at hrun hiff
  have hstart : Waits.start.Sorted := ⟨.nil, nofun, nofun⟩
  rw [hiff, ← Waits.own_iff_flat hrun hstart ⟨nofun, .inl ⟨rfl, rfl⟩⟩
    (show t.client.slots.waits = [] from List.map_eq_nil_iff.2 hend)]
  constructor
  · intro hown e he
    obtain ⟨d, hd, rfl⟩ := List.mem_map.1 he
    exact (own_iff ht hdistinct hd).1 (hown d hd)
  · intro hown d hd
    exact (own_iff ht hdistinct hd).2 (hown _ (List.mem_map_of_mem hd))

end Nested

end KnotLink
