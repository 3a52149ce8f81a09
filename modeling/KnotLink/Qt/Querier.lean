import KnotLink.Lib.Text
import KnotLink.Qt.TcpClient
/-!
# Qt `OpenSocketQuerier` (opensocketquerier.cpp)

`fromUtf8` is `QString::fromUtf8`, which is Qt's and not the SDK's; `Decodes` is what the results about texts rely on.
`init` connects `dataRecv` to `receivedData`, `query_l` connects its lambda
behind it and starts a nested event loop, which ends when the `readData` that has called `loop.quit` returns.
-/
namespace KnotLink.Qt
open Lib QtSocket

/-- A text that `QString::fromUtf8` gives back: it drops a byte order mark in front, and in Qt 5 stops at a NUL. -/
def Plain (cs : List Char) : Prop := cs.head? ≠ some '\uFEFF' ∧ '\x00' ∉ cs

instance (cs : List Char) : Decidable (Plain cs) := inferInstanceAs (Decidable (_ ∧ _))

/-- Plain texts come back. -/
def Decodes (fromUtf8 : Bytes → List Char) : Prop := ∀ cs, Plain cs → fromUtf8 (Utf8.encode cs) = cs

theorem decodes_decodeReplace : Decodes Utf8.decodeReplace := fun cs _ => Utf8.decodeReplace_encode cs

structure OpenSocketQuerier where
  appID : List Char
  openSocketID : List Char
  queryPending : Bool
  /-- Emissions of the signals. -/
  dataBackA : List Bytes
  dataBack : List (List Char)
  deriving DecidableEq, Repr

/-- The querier with the locals of `query_l`. -/
structure QueryLoop where
  querier : OpenSocketQuerier
  /-- The values that the lambda has given `result`, in order. -/
  result : List (List Char)
  quit : Bool
  deriving DecidableEq, Repr

namespace OpenSocketQuerier
variable (fromUtf8 : Bytes → List Char)

/-- `dataRecv` (opensocketquerier.cpp:84-90). -/
def dataRecv (s : OpenSocketQuerier) (data : Bytes) : OpenSocketQuerier :=
  if s.queryPending then s
  else { s with dataBackA := s.dataBackA ++ [data], dataBack := s.dataBack ++ [fromUtf8 data] }

/-- The slots of `receivedData` while `query_l` runs, in connection order: `dataRecv`, then the lambda. -/
def receivedData (s : QueryLoop) (data : Bytes) : QueryLoop :=
  { querier := s.querier.dataRecv fromUtf8 data, result := s.result ++ [fromUtf8 data], quit := true }

/-- `query` (opensocketquerier.cpp:57-82). -/
def query (s : TcpClient OpenSocketQuerier) (data : List Char) : TcpClient OpenSocketQuerier :=
  let key := s.slots.appID ++ "-".toList ++ s.slots.openSocketID ++ "&*&".toList
  TcpClient.sendData s (Utf8.encode key ++ Utf8.encode data)

/-- `query_l` up to its event loop (opensocketquerier.cpp:38-39). -/
def ask (s : TcpClient OpenSocketQuerier) (data : List Char) : TcpClient OpenSocketQuerier :=
  query { s with slots := { s.slots with queryPending := true } } data

/-- `query_l` (opensocketquerier.cpp:33-55) on the chunks that arrive while it waits: what `result` was given,
the last of which is returned, and the client then. -/
def queryL (s : TcpClient OpenSocketQuerier) (data : List Char) (chunks : List Bytes) :
    Option (List (List Char) × TcpClient OpenSocketQuerier) :=
  let s := ask s data
  let loop := s.withSlots (⟨s.slots, [], false⟩ : QueryLoop)
  (runUntil (TcpClient.readyRead frameEnd (receivedData fromUtf8)) (fun t => t.slots.quit) loop chunks).map fun t =>
    (t.slots.result, t.withSlots { t.slots.querier with queryPending := false })

variable {fromUtf8}

/-- While `query_l` waits, `dataRecv` does nothing. -/
theorem foldl_receivedData {s : QueryLoop} (hs : s.querier.queryPending = true) (ms : List Bytes) :
    ms.foldl (receivedData fromUtf8) s = ⟨s.querier, s.result ++ ms.map fromUtf8, s.quit || !ms.isEmpty⟩ := by
  induction ms generalizing s with
  | nil => simp
  | cons m ms ih =>
    have hrecv : receivedData fromUtf8 s m = ⟨s.querier, s.result ++ [fromUtf8 m], true⟩ := by
      simp [receivedData, dataRecv, hs]
    have htail := @ih ⟨s.querier, s.result ++ [fromUtf8 m], true⟩ hs
    rw [List.foldl_cons, hrecv, htail]
    simp

theorem ask_spec (s : TcpClient OpenSocketQuerier) (data : List Char) : (ask s data).connected = s.connected ∧
    (ask s data).buffer = s.buffer ∧ (ask s data).slots = { s.slots with queryPending := true } := by
  simp only [ask, query, TcpClient.sendData]
  split <;> exact ⟨rfl, rfl, rfl⟩

/-- `query_l` gives `result` every message of the chunk that completes the first one. -/
theorem queryL_batch {s : TcpClient OpenSocketQuerier} (hs : s.connected = true)
    (hb : ∀ m r, wireFront s.buffer ≠ .frame m r) {chunks : List Bytes} (hne : ∀ c ∈ chunks, c ≠ []) {m : Bytes}
    {later : List Bytes} (hm : messages (s.buffer ++ chunks.flatten) = m :: later) (data : List Char) :
    ∃ more t, queryL fromUtf8 s data chunks = some ((m :: more).map fromUtf8, t) ∧
      (TcpClient.Single s.buffer chunks ↔ more = []) := by
  obtain ⟨hc, hbuf, hslots⟩ := ask_spec s data
  have hpending : (ask s data).slots.queryPending = true := by rw [hslots]
  generalize hloop : (ask s data).withSlots (⟨(ask s data).slots, [], false⟩ : QueryLoop) = loop
  have hslot : loop.slots = ⟨(ask s data).slots, [], false⟩ := by rw [← hloop]; rfl
  have hb' : loop.connected = s.connected ∧ loop.buffer = s.buffer := by
    rw [← hloop]
    exact ⟨hc, hbuf⟩
  have hstop : ∀ ms : List Bytes, QueryLoop.quit (ms.foldl (receivedData fromUtf8) loop.slots) = true ↔ ms ≠ [] := by
    intro ms
    rw [hslot, foldl_receivedData hpending]
    simp
  obtain ⟨more, t, hrun, ht, hsingle⟩ := TcpClient.exec_batch (e := frameEnd) hstop (hb'.1.trans hs)
    (by rw [hb'.2]; exact hb) hne (by rw [hb'.2]; exact hm)
  refine ⟨more, t.withSlots { t.slots.querier with queryPending := false }, ?_, by rw [← hb'.2]; exact hsingle⟩
  rw [hslot, foldl_receivedData hpending] at ht
  simp only [queryL, hloop, hrun, Option.map_some, ht]
  simp

/-- **`query_l` returns the first message and has used no other, exactly if** the chunk that completes it
completes no other. -/
theorem queryL_first_iff {s : TcpClient OpenSocketQuerier} (hs : s.connected = true)
    (hb : ∀ m r, wireFront s.buffer ≠ .frame m r) {chunks : List Bytes} (hne : ∀ c ∈ chunks, c ≠ []) {m : Bytes}
    {later : List Bytes} (hm : messages (s.buffer ++ chunks.flatten) = m :: later) (data : List Char) :
    (∃ t, queryL fromUtf8 s data chunks = some ([fromUtf8 m], t)) ↔ TcpClient.Single s.buffer chunks := by
  obtain ⟨more, t, hrun, hsingle⟩ := @queryL_batch fromUtf8 s hs hb chunks hne m later hm data
  rw [hsingle, hrun]
  constructor
  · rintro ⟨u, hu⟩
    have hres := congrArg Prod.fst (Option.some.inj hu)
    simpa using hres
  · rintro rfl
    exact ⟨t, rfl⟩

end OpenSocketQuerier
end KnotLink.Qt
