import KnotLink.Python.Text
import KnotLink.PyQt.TcpClient
/-!
# PyQt `OpenSocketQuerier` (knotlink-pyqt, OpenSocketQuerier.py)

`init` connects `dataRecv` to `receivedData`, `query_l` connects `on_data_received` behind it and starts a nested
event loop. `on_data_received` clears `lock`, so from the second message on `dataRecv` emits again. An exception
that leaves a slot ends the process, as PyQt does where no `sys.excepthook` is set.
-/
namespace KnotLink.PyQt
open Lib QtSocket Python

structure OpenSocketQuerier where
  appID : PyStr
  openSocketID : PyStr
  lock : Bool
  /-- Emissions of the signals. -/
  dataBackA : List Bytes
  dataBack : List PyStr
  deriving DecidableEq, Repr

/-- The querier with the locals of `query_l`. -/
structure QueryLoop where
  querier : OpenSocketQuerier
  /-- The values that `on_data_received` has given `result`, in order. -/
  result : List PyStr
  quit : Bool
  /-- An exception has left a slot. -/
  aborted : Bool
  deriving DecidableEq, Repr

/-- What becomes of a call of `query_l` by some chunks. -/
inductive QueryOutcome where
  /-- `UnicodeEncodeError` of the request. -/
  | unicodeEncode
  | waiting
  | aborted
  /-- What `result` was given, the last of which is returned, and the client then. -/
  | returned (result : List PyStr) (client : TcpClient OpenSocketQuerier)
  deriving DecidableEq, Repr

namespace OpenSocketQuerier

/-- `dataRecv` (OpenSocketQuerier.py:64-69), and whether it raises. -/
def dataRecv (s : OpenSocketQuerier) (data : Bytes) : OpenSocketQuerier × Bool :=
  if s.lock then (s, false)
  else
    let s := { s with dataBackA := s.dataBackA ++ [data] }
    match decodeUtf8 data with
    | none => (s, true)
    | some receivedText => ({ s with dataBack := s.dataBack ++ [receivedText] }, false)

/-- `on_data_received` (OpenSocketQuerier.py:36-40). -/
def onDataReceived (s : QueryLoop) (receivedData : Bytes) : QueryLoop :=
  match decodeUtf8 receivedData with
  | none => { s with aborted := true }
  | some text => { s with result := s.result ++ [text], querier := { s.querier with lock := false }, quit := true }

/-- The slots of `receivedData` while `query_l` runs, in connection order. -/
def receivedData (s : QueryLoop) (data : Bytes) : QueryLoop :=
  if s.aborted then s
  else
    match s.querier.dataRecv data with
    | (querier, true) => { s with querier, aborted := true }
    | (querier, false) => onDataReceived { s with querier } data

/-- `query` and `_query_a` (OpenSocketQuerier.py:49-62). -/
def query (s : TcpClient OpenSocketQuerier) (data : PyStr) : Option (TcpClient OpenSocketQuerier) :=
  match encodeUtf8 data with
  | none => none
  | some data =>
    match encodeUtf8 (s.slots.appID ++ str "-" ++ s.slots.openSocketID ++ str "&*&") with
    | none => none
    | some key => some (TcpClient.sendData s (key ++ data))

/-- `query_l` up to its event loop (OpenSocketQuerier.py:42-44). -/
def ask (s : TcpClient OpenSocketQuerier) (data : PyStr) : Option (TcpClient OpenSocketQuerier) :=
  (query s data).map fun s => { s with slots := { s.slots with lock := true } }

def stopped (s : QueryLoop) : Bool := s.quit || s.aborted

/-- `query_l` (OpenSocketQuerier.py:32-47) on the chunks that arrive while it waits. -/
def queryL (s : TcpClient OpenSocketQuerier) (data : PyStr) (chunks : List Bytes) : QueryOutcome :=
  match ask s data with
  | none => .unicodeEncode
  | some s =>
    let loop := s.withSlots (⟨s.slots, [], false, false⟩ : QueryLoop)
    match runUntil (TcpClient.readyRead frameEnd receivedData) (fun t => stopped t.slots) loop chunks with
    | none => .waiting
    | some t => if t.slots.aborted then .aborted else .returned t.slots.result (t.withSlots t.slots.querier)

/-! ## Messages while `query_l` waits -/

/-- Every message stops the loop, by `quit` or by an exception. -/
theorem stopped_receivedData (s : QueryLoop) (m : Bytes) : stopped (receivedData s m) = true := by
  unfold receivedData
  by_cases ha : s.aborted = true
  · rw [if_pos ha, stopped, ha, Bool.or_true]
  · rw [if_neg ha]
    rcases s.querier.dataRecv m with ⟨querier, _ | _⟩
    · simp only [onDataReceived]
      cases decodeUtf8 m <;> simp [stopped]
    · simp [stopped]

theorem stopped_foldl {s : QueryLoop} (hs : stopped s = false) (ms : List Bytes) :
    stopped (ms.foldl receivedData s) = true ↔ ms ≠ [] := by
  rcases List.eq_nil_or_concat ms with rfl | ⟨init, m, rfl⟩
  · simp [hs]
  · simp [stopped_receivedData]

theorem foldl_aborted {s : QueryLoop} (hs : s.aborted = true) (ms : List Bytes) :
    (ms.foldl receivedData s).aborted = true := by
  induction ms with
  | nil => exact hs
  | cons m ms ih => rwa [List.foldl_cons, receivedData, if_pos hs]

/-- The process has ended, or `result` was given a value by every message. -/
theorem foldl_receivedData (s : QueryLoop) (ms : List Bytes) : (ms.foldl receivedData s).aborted = true ∨
    (ms.foldl receivedData s).result.length = s.result.length + ms.length := by
  induction ms generalizing s with
  | nil => exact .inr rfl
  | cons m ms ih =>
    rw [List.foldl_cons]
    have hstep : (receivedData s m).aborted = true ∨ (receivedData s m).result.length = s.result.length + 1 := by
      unfold receivedData
      by_cases ha : s.aborted = true
      · exact .inl (by rw [if_pos ha, ha])
      · rw [if_neg ha]
        rcases s.querier.dataRecv m with ⟨querier, _ | _⟩
        · simp only [onDataReceived]
          cases decodeUtf8 m <;> simp
        · exact .inl rfl
    rcases hstep with ha | hlen
    · exact .inl (foldl_aborted ha ms)
    · refine (ih (receivedData s m)).imp id fun h => ?_
      rw [h, hlen, List.length_cons]
      omega

theorem ask_spec {s t : TcpClient OpenSocketQuerier} {data : PyStr} (h : ask s data = some t) :
    t.connected = s.connected ∧ t.buffer = s.buffer ∧ t.slots = { s.slots with lock := true } := by
  obtain ⟨u, hu, rfl⟩ := Option.map_eq_some_iff.1 h
  simp only [query] at hu
  split at hu
  · cases hu
  · split at hu
    · cases hu
    · cases hu
      simp only [TcpClient.sendData, TcpClient.writeWithLengthPrefix]
      split
      · exact ⟨rfl, rfl, rfl⟩
      · split <;> exact ⟨rfl, rfl, rfl⟩

/-- **`query_l` returns the first message and has used no other, exactly if** the message is UTF-8 and the chunk
that completes it completes no other. -/
theorem queryL_first_iff {s t : TcpClient OpenSocketQuerier} {data : PyStr} (hask : ask s data = some t)
    (hs : s.connected = true) (hb : ∀ m r, wireFront s.buffer ≠ .frame m r) {chunks : List Bytes}
    (hne : ∀ c ∈ chunks, c ≠ []) {m : Bytes} {later : List Bytes}
    (hm : messages (s.buffer ++ chunks.flatten) = m :: later) :
    (∃ text u, decodeUtf8 m = some text ∧ queryL s data chunks = .returned [text] u) ↔
      (decodeUtf8 m).isSome ∧ TcpClient.Single s.buffer chunks := by
  obtain ⟨hc, hbuf, hslots⟩ := ask_spec hask
  generalize hloop : t.withSlots (⟨t.slots, [], false, false⟩ : QueryLoop) = loop
  have hslot : loop.slots = ⟨{ s.slots with lock := true }, [], false, false⟩ := by rw [← hloop, ← hslots]; rfl
  have hb' : loop.connected = s.connected ∧ loop.buffer = s.buffer := by
    rw [← hloop]
    exact ⟨hc, hbuf⟩
  have hstop : ∀ ms : List Bytes, stopped (ms.foldl receivedData loop.slots) = true ↔ ms ≠ [] :=
    stopped_foldl (by rw [hslot]; rfl)
  obtain ⟨more, v, hrun, hv, hsingle⟩ := TcpClient.exec_batch (e := frameEnd) hstop (hb'.1.trans hs)
    (by rw [hb'.2]; exact hb) hne (by rw [hb'.2]; exact hm)
  rw [hb'.2] at hsingle
  have hquery : queryL s data chunks =
      if v.slots.aborted then .aborted else .returned v.slots.result (v.withSlots v.slots.querier) := by
    simp only [queryL, hask, hloop, hrun]
  rw [hsingle, hquery]
  constructor
  · rintro ⟨text, u, htext, hret⟩
    refine ⟨by rw [htext]; rfl, ?_⟩
    split at hret
    · cases hret
    · rename_i hok
      obtain ⟨hres, -⟩ := QueryOutcome.returned.inj hret
      rcases foldl_receivedData loop.slots (m :: more) with ha | hlen
      · rw [← hv] at ha
        exact absurd ha hok
      · rw [← hv, hres, hslot] at hlen
        simp only [List.length_nil, List.length_cons] at hlen
        exact List.length_eq_zero_iff.1 (by omega)
  · rintro ⟨htext, rfl⟩
    obtain ⟨text, htext⟩ := Option.isSome_iff_exists.1 htext
    have hfirst : v.slots = ⟨{ s.slots with lock := false }, [text], true, false⟩ := by
      rw [hv, hslot]
      simp [receivedData, dataRecv, onDataReceived, htext]
    exact ⟨text, _, htext, by rw [hfirst]; rfl⟩

end OpenSocketQuerier
end KnotLink.PyQt
