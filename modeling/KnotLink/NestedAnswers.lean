import KnotLink.NestedQueries
import KnotLink.Qt.Querier
import KnotLink.PyQt.Querier
/-!
# What nested calls of `query_l` return, in Qt and PyQt

The slots that Qt's lambda and PyQt's `on_data_received` add for each call, and the results about both. Qt holds
messages back from `dataBack` until the call returns, PyQt until the first message of a chunk.
-/
namespace KnotLink
open Lib QtSocket

namespace Qt.OpenSocketQuerier
variable (fromUtf8 : Bytes → List Char)

/-- The slots of `receivedData`: `dataRecv`, then the lambda of each call. -/
def slots (s : QueryCalls OpenSocketQuerier (List Char)) (data : Bytes) : QueryCalls OpenSocketQuerier (List Char) :=
  { s with querier := s.querier.dataRecv fromUtf8 data, calls := s.calls.map (·.answer (some (fromUtf8 data))) }

/-- `query_l` behind its event loop (opensocketquerier.cpp:51-52). -/
def finish (s : OpenSocketQuerier) : OpenSocketQuerier := { s with queryPending := false }

theorem query_spec (s : TcpClient OpenSocketQuerier) (data : List Char) : (query s data).connected = s.connected ∧
    (query s data).buffer = s.buffer ∧ (query s data).slots = s.slots := by
  simp only [query, TcpClient.sendData]
  split <;> exact ⟨rfl, rfl, rfl⟩

def nested : NestedSdk OpenSocketQuerier (List Char) (List Char) where
  frameEnd := frameEnd
  text data := some (fromUtf8 data)
  receivedData := slots fromUtf8
  query s data := some (query s data)
  ask s data := some (ask s data)
  finish := finish
  queryPending := queryPending
  keeps := true
  dataBackA := dataBackA
  dataBack := dataBack
  stays h := h
  waits {s m} := by simp [slots, QueryCall.answer]
  received {s m} _ := by
    cases hp : s.querier.queryPending <;> simp [slots, dataRecv, hp]
  queried h := by
    cases h
    exact query_spec _ _
  asked {s u data} h := by
    cases h
    obtain ⟨hconn, hbuf, hslots⟩ := ask_spec s data
    rw [hslots]
    exact ⟨hconn, hbuf, rfl, rfl, rfl⟩
  finished _ := ⟨fun _ => rfl, rfl, rfl⟩

end Qt.OpenSocketQuerier

namespace PyQt.OpenSocketQuerier
open Python

/-- `on_data_received` of one call (OpenSocketQuerier.py:36-40), behind those connected before it. -/
def onDataReceivedOf (data : Bytes) (call : QueryCall PyStr) (s : QueryCalls OpenSocketQuerier PyStr) :
    QueryCalls OpenSocketQuerier PyStr :=
  if s.aborted then { s with calls := call :: s.calls }
  else
    match decodeUtf8 data with
    | none => { s with calls := call :: s.calls, aborted := true }
    | some text =>
      { s with calls := call.answer (some text) :: s.calls, querier := { s.querier with lock := false } }

/-- The slots of `receivedData`: `dataRecv`, then `on_data_received` of each call, the outermost first. -/
def slots (s : QueryCalls OpenSocketQuerier PyStr) (data : Bytes) : QueryCalls OpenSocketQuerier PyStr :=
  if s.aborted then s
  else
    match s.querier.dataRecv data with
    | (querier, true) => { s with querier, aborted := true }
    | (querier, false) => s.calls.foldr (onDataReceivedOf data) { s with querier, calls := [] }

theorem foldr_waits (data : Bytes) (calls : List (QueryCall PyStr)) (s : QueryCalls OpenSocketQuerier PyStr) :
    (calls.foldr (onDataReceivedOf data) s).waits = calls.map (·.wait) ++ s.waits := by
  induction calls with
  | nil => rfl
  | cons call calls ih =>
    rw [List.foldr_cons, List.map_cons, List.cons_append, ← ih, onDataReceivedOf]
    split
    · rfl
    · cases decodeUtf8 data <;> rfl

/-- The calls have all taken the message if none has raised. -/
theorem foldr_received {data : Bytes} {calls : List (QueryCall PyStr)} {querier : OpenSocketQuerier}
    (h : (calls.foldr (onDataReceivedOf data) ⟨querier, [], false⟩).aborted = false) :
    calls.foldr (onDataReceivedOf data) ⟨querier, [], false⟩ =
      ⟨{ querier with lock := querier.lock && calls.isEmpty }, calls.map (·.answer (decodeUtf8 data)), false⟩ := by
  induction calls with
  | nil => simp
  | cons call calls ih =>
    rw [List.foldr_cons] at h ⊢
    cases ha : (calls.foldr (onDataReceivedOf data) ⟨querier, [], false⟩).aborted with
    | true =>
      rw [onDataReceivedOf, if_pos ha] at h
      exact absurd (ha.symm.trans h) nofun
    | false =>
      rw [ih ha] at h ⊢
      cases hd : decodeUtf8 data with
      | none => simp [onDataReceivedOf, hd] at h
      | some text => simp [onDataReceivedOf, hd]

theorem query_spec {s u : TcpClient OpenSocketQuerier} {data : PyStr} (h : query s data = some u) :
    u.connected = s.connected ∧ u.buffer = s.buffer ∧ u.slots = s.slots := by
  simp only [query] at h
  split at h
  · cases h
  · split at h
    · cases h
    · cases h
      simp only [TcpClient.sendData, TcpClient.writeWithLengthPrefix]
      split
      · exact ⟨rfl, rfl, rfl⟩
      · split <;> exact ⟨rfl, rfl, rfl⟩

theorem dataRecv_spec {s querier : OpenSocketQuerier} {m : Bytes} (h : s.dataRecv m = (querier, false)) :
    querier.lock = s.lock ∧ querier.dataBackA = s.dataBackA ++ (if s.lock then [] else [m]) ∧
      querier.dataBack = s.dataBack ++ (if s.lock then [] else (decodeUtf8 m).toList) := by
  simp only [dataRecv] at h
  split at h
  · rename_i hl
    obtain ⟨rfl, -⟩ := Prod.mk.inj h
    simp [hl]
  · rename_i hl
    cases hd : decodeUtf8 m with
    | none =>
      rw [hd] at h
      cases (Prod.mk.inj h).2
    | some text =>
      rw [hd] at h
      obtain ⟨rfl, -⟩ := Prod.mk.inj h
      simp [hl]

theorem slots_received {s : QueryCalls OpenSocketQuerier PyStr} {m : Bytes} (h : (slots s m).aborted = false) :
    (slots s m).calls = s.calls.map (·.answer (decodeUtf8 m)) ∧
    (slots s m).querier.lock = (s.querier.lock && s.calls.isEmpty) ∧
    (slots s m).querier.dataBackA = s.querier.dataBackA ++ (if s.querier.lock then [] else [m]) ∧
    (slots s m).querier.dataBack = s.querier.dataBack ++ (if s.querier.lock then [] else (decodeUtf8 m).toList) := by
  have ha : s.aborted = false := by
    by_contra ha
    rw [slots, if_pos (by simpa using ha)] at h
    exact ha h
  rw [slots, ha, if_neg nofun] at h ⊢
  cases hrecv : s.querier.dataRecv m with
  | mk querier raised =>
    rw [hrecv] at h
    cases raised with
    | true => cases h
    | false =>
      obtain ⟨hlock, hA, hB⟩ := dataRecv_spec hrecv
      have hfold := foldr_received h
      refine (show _ ∧ _ ∧ _ ∧ _ from ?_)
      simp only [hfold]
      exact ⟨trivial, by rw [hlock], hA, hB⟩

def nested : NestedSdk OpenSocketQuerier PyStr PyStr where
  frameEnd := frameEnd
  text := decodeUtf8
  receivedData := slots
  query := query
  ask := ask
  finish := id
  queryPending := lock
  keeps := false
  dataBackA := dataBackA
  dataBack := dataBack
  stays {s m} h := by rw [slots, if_pos h, h]
  waits {s m} := by
    rw [slots]
    split
    · rfl
    · rcases s.querier.dataRecv m with ⟨querier, _ | _⟩
      · exact (foldr_waits m s.calls _).trans (List.append_nil _)
      · rfl
  received h := by simpa using slots_received h
  queried := query_spec
  asked h := by
    obtain ⟨hconn, hbuf, hslots⟩ := ask_spec h
    rw [hslots]
    exact ⟨hconn, hbuf, rfl, rfl, rfl⟩
  finished q := ⟨fun h => h.resolve_left nofun, rfl, rfl⟩

end PyQt.OpenSocketQuerier

namespace Nested

/-- A Qt querier behind its constructor. -/
def qtStart (appID openSocketID : List Char) (waitForConnected : Bool) : Nested Qt.OpenSocketQuerier (List Char) :=
  start (Qt.TcpClient.connectToServer (.new ⟨appID, openSocketID, false, [], []⟩) waitForConnected)

/-- A PyQt querier behind its constructor. -/
def pyqtStart (appID openSocketID : Python.PyStr) (waitForConnected : Bool) :
    Nested PyQt.OpenSocketQuerier Python.PyStr :=
  start (PyQt.TcpClient.connectToServer (.new ⟨appID, openSocketID, false, [], []⟩) waitForConnected).2

theorem inv_qtStart (fromUtf8 : Bytes → List Char) (appID openSocketID : List Char) (waitForConnected : Bool) :
    Inv (Qt.OpenSocketQuerier.nested fromUtf8) (qtStart appID openSocketID waitForConnected) := by
  cases waitForConnected <;> exact inv_start rfl rfl rfl rfl

theorem inv_pyqtStart (appID openSocketID : Python.PyStr) (waitForConnected : Bool) :
    Inv PyQt.OpenSocketQuerier.nested (pyqtStart appID openSocketID waitForConnected) := by
  cases waitForConnected <;> exact inv_start rfl rfl rfl rfl

section
variable {fromUtf8 : Bytes → List Char} {appID openSocketID : List Char} {appID' openSocketID' : Python.PyStr}
  {w w' : Bool} {as : List (NestedAct (List Char))} {bs : List (NestedAct Python.PyStr)}
  {t : Nested Qt.OpenSocketQuerier (List Char)} {v : Nested PyQt.OpenSocketQuerier Python.PyStr}

/-- **However calls of `query_l` are nested and messages cut**, a call returns the last message that has come, which
came behind its start; of two nested calls at most one returns its own answer; `dataBack` gets the messages that no
call was waiting for, and in PyQt also those behind the first one of a chunk. -/
theorem nested_results
    (h : (system (Qt.OpenSocketQuerier.nested fromUtf8)).Runs (fun _ _ => True) (qtStart appID openSocketID w) as t)
    (h' : (system PyQt.OpenSocketQuerier.nested).Runs (fun _ _ => True) (pyqtStart appID' openSocketID' w') bs v) :
    Answered (Qt.OpenSocketQuerier.nested fromUtf8) t ∧ Answered PyQt.OpenSocketQuerier.nested v := by
  refine ⟨answered_run h (inv_qtStart _ _ _ _) ?_, answered_run h' (inv_pyqtStart _ _ _) ?_⟩
  · exact ⟨.nil, nofun, nofun⟩
  · exact ⟨.nil, nofun, nofun⟩

/-- Two nested calls with one answer, then a message for no call. -/
def nestedTwo {α : Type} (p q : α) : List (NestedAct α) :=
  [.queryL p, .queryL q, .readyRead (frame [0x41]), .ret, .ret, .readyRead (frame [0x42])]

theorem nested_results_two :
    (∃ t, (system (Qt.OpenSocketQuerier.nested Utf8.decodeReplace)).Runs (fun _ _ => True) (qtStart ['a'] ['s'] true)
        (nestedTwo ['p'] ['q']) t ∧
      Answered (Qt.OpenSocketQuerier.nested Utf8.decodeReplace) t ∧
      t.returned = [⟨⟨2, 0⟩, 1, some ['A']⟩, ⟨⟨1, 0⟩, 1, some ['A']⟩] ∧ t.unclaimed = [[0x42]]) ∧
    ∃ v, (system PyQt.OpenSocketQuerier.nested).Runs (fun _ _ => True)
        (pyqtStart (Python.str "a") (Python.str "s") true) (nestedTwo (Python.str "p") (Python.str "q")) v ∧
      Answered PyQt.OpenSocketQuerier.nested v ∧
      v.returned = [⟨⟨2, 0⟩, 1, some (Python.str "A")⟩, ⟨⟨1, 0⟩, 1, some (Python.str "A")⟩] ∧
      v.unclaimed = [[0x42]] := by
  obtain ⟨t, hrun, ht⟩ := (system (Qt.OpenSocketQuerier.nested Utf8.decodeReplace)).exists_run (fun _ _ => True)
    (qtStart ['a'] ['s'] true) (nestedTwo ['p'] ['q'])
    (fun t => t.returned = [⟨⟨2, 0⟩, 1, some ['A']⟩, ⟨⟨1, 0⟩, 1, some ['A']⟩] ∧ t.unclaimed = [[0x42]])
    (by decide +kernel)
  obtain ⟨v, hrun', hv⟩ := (system PyQt.OpenSocketQuerier.nested).exists_run (fun _ _ => True)
    (pyqtStart (Python.str "a") (Python.str "s") true) (nestedTwo (Python.str "p") (Python.str "q"))
    (fun v => v.returned = [⟨⟨2, 0⟩, 1, some (Python.str "A")⟩, ⟨⟨1, 0⟩, 1, some (Python.str "A")⟩] ∧
      v.unclaimed = [[0x42]])
    (by decide +kernel)
  obtain ⟨hqt, hpyqt⟩ := nested_results hrun hrun'
  exact ⟨⟨t, hrun, hqt, ht⟩, v, hrun', hpyqt, hv⟩

/-- **Where messages come one a chunk, in order and not ahead of the requests, all calls return their own answers
exactly if** none is made inside another. -/
theorem own_answers_iff_flat
    (h : (system (Qt.OpenSocketQuerier.nested fromUtf8)).Runs Timely (qtStart appID openSocketID w) as t)
    (hend : t.client.slots.calls = []) (hdistinct : (t.came.map fun m => some (fromUtf8 m)).Nodup)
    (h' : (system PyQt.OpenSocketQuerier.nested).Runs Timely (pyqtStart appID' openSocketID' w') bs v)
    (hend' : v.client.slots.calls = []) (hdistinct' : (v.came.map Python.decodeUtf8).Nodup) :
    ((∀ d ∈ t.returned, OwnAnswer (Qt.OpenSocketQuerier.nested fromUtf8) t d) ↔
      (system (Qt.OpenSocketQuerier.nested fromUtf8)).Runs (fun s a => Timely s a ∧ Flat s a)
        (qtStart appID openSocketID w) as t) ∧
    ((∀ d ∈ v.returned, OwnAnswer PyQt.OpenSocketQuerier.nested v d) ↔
      (system PyQt.OpenSocketQuerier.nested).Runs (fun s a => Timely s a ∧ Flat s a)
        (pyqtStart appID' openSocketID' w') bs v) :=
  ⟨own_iff_flat h (inv_qtStart _ _ _ _) (waits_start _) hend hdistinct,
    own_iff_flat h' (inv_pyqtStart _ _ _) (waits_start _) hend' hdistinct'⟩

end

/-- One call behind another. -/
def flatTwo {α : Type} (p q : α) : List (NestedAct α) :=
  [.queryL p, .readyRead (frame [0x41]), .ret, .queryL q, .readyRead (frame [0x42]), .ret]

theorem own_answers_iff_flat_twice :
    (∃ t, (system (Qt.OpenSocketQuerier.nested Utf8.decodeReplace)).Runs (fun s a => Timely s a ∧ Flat s a)
        (qtStart ['a'] ['s'] true) (flatTwo ['p'] ['q']) t ∧
      (∀ d ∈ t.returned, OwnAnswer (Qt.OpenSocketQuerier.nested Utf8.decodeReplace) t d) ∧
      t.returned = [⟨⟨1, 0⟩, 1, some ['A']⟩, ⟨⟨2, 1⟩, 2, some ['B']⟩]) ∧
    ∃ v, (system PyQt.OpenSocketQuerier.nested).Runs (fun s a => Timely s a ∧ Flat s a)
        (pyqtStart (Python.str "a") (Python.str "s") true) (flatTwo (Python.str "p") (Python.str "q")) v ∧
      (∀ d ∈ v.returned, OwnAnswer PyQt.OpenSocketQuerier.nested v d) ∧
      v.returned = [⟨⟨1, 0⟩, 1, some (Python.str "A")⟩, ⟨⟨2, 1⟩, 2, some (Python.str "B")⟩] := by
  obtain ⟨t, hrun, hret, hend, hdistinct⟩ := (system (Qt.OpenSocketQuerier.nested Utf8.decodeReplace)).exists_run
    (fun s a => Timely s a ∧ Flat s a) (qtStart ['a'] ['s'] true) (flatTwo ['p'] ['q'])
    (fun t => t.returned = [⟨⟨1, 0⟩, 1, some ['A']⟩, ⟨⟨2, 1⟩, 2, some ['B']⟩] ∧ t.client.slots.calls = [] ∧
      (t.came.map fun m => some (Utf8.decodeReplace m)).Nodup)
    (by decide +kernel)
  obtain ⟨v, hrun', hret', hend', hdistinct'⟩ := (system PyQt.OpenSocketQuerier.nested).exists_run
    (fun s a => Timely s a ∧ Flat s a) (pyqtStart (Python.str "a") (Python.str "s") true)
    (flatTwo (Python.str "p") (Python.str "q"))
    (fun v => v.returned = [⟨⟨1, 0⟩, 1, some (Python.str "A")⟩, ⟨⟨2, 1⟩, 2, some (Python.str "B")⟩] ∧
      v.client.slots.calls = [] ∧ (v.came.map Python.decodeUtf8).Nodup)
    (by decide +kernel)
  obtain ⟨hqt, hpyqt⟩ := own_answers_iff_flat (hrun.mono fun _ _ ha => ha.1) hend hdistinct
    (hrun'.mono fun _ _ ha => ha.1) hend' hdistinct'
  exact ⟨⟨t, hrun, hqt.2 hrun, hret⟩, v, hrun', hpyqt.2 hrun', hret'⟩

end Nested
end KnotLink
