import KnotLink.Python.QuerierThreads
/-!
# Callers on a dead connection

`disconnect` wakes the callers of `query` (OpenSocketQuerier.py:84), but the connection also dies without it:
the peer closes, a frame is bad, a write fails, the user's callback raises, or there was none to begin with. Then nobody
sets `query_event`. A call without timeout stays blocked if the receive thread ends under it, or if it begins to wait
when that thread has already ended. One way for the thread to end leaves `connected` set (an exception of the callback
that is no `socket.error`); then the calls that wait are left alone by whatever clears `connected` next (`eventSet_iff`).

Besides the steps of `QuerierThreads` the timer thread's heartbeat and `query_async` write, and the decoder may refuse a
frame, which clears `connected` while the receive thread still runs.
-/
namespace KnotLink.Python
open Lib

inductive ConnectionAct (τ : Type) where
  | querier (a : QuerierAct τ)
  /-- `query_async` (OpenSocketQuerier.py:52). -/
  | queryAsync (data : PyStr) (net : TcpClient.SendAll)
  /-- `send_heart_beat` (tcpclient.py:78). -/
  | heartBeat (net : TcpClient.SendAll)
  /-- `_process_buffer` meets a bad magic or length (tcpclient.py:117-127). -/
  | badFrame
  deriving DecidableEq, Repr

/-- `_query` raises: for the text of the question or the configuration, or for the length of the message, which a
client that is not connected does not look at. -/
def refuses (cfg : QuerierConfig) (c : TcpClient) (data : PyStr) : Bool :=
  match queryMessage cfg.appID cfg.openSocketID data with
  | .error _ => true
  | .ok sData => c.connected && decide (sData.length > MAX_MSG_SIZE)

theorem sendQuery_raised {cfg : QuerierConfig} {c c' : TcpClient} {data : PyStr} {net : TcpClient.SendAll}
    {e : QueryError} (h : sendQuery cfg.appID cfg.openSocketID c data net = (c', .error e)) :
    c' = c ∧ refuses cfg c data = true := by
  unfold sendQuery at h
  unfold refuses
  cases hm : queryMessage cfg.appID cfg.openSocketID data with
  | error e =>
    rw [hm] at h
    cases h
    exact ⟨rfl, rfl⟩
  | ok sData =>
    rw [hm] at h
    simp only [TcpClient.sendData, TcpClient.writeWithLengthPrefix] at h
    cases hc : c.connected with
    | false => simp [hc] at h
    | true =>
      by_cases hlen : sData.length > MAX_MSG_SIZE
      · simp only [TcpClient.packet, hc, hlen, if_true, Bool.not_true, Bool.false_eq_true, if_false] at h
        cases h
        exact ⟨rfl, by simp [hlen]⟩
      · rw [TcpClient.packet_ok (Nat.le_of_not_lt hlen)] at h
        cases net <;> simp [hc] at h

theorem sendQuery_returned {cfg : QuerierConfig} {c c' : TcpClient} {data : PyStr} {net : TcpClient.SendAll}
    (h : sendQuery cfg.appID cfg.openSocketID c data net = (c', .ok ())) :
    refuses cfg c data = false ∧ (c.connected = true → (c'.connected = true ↔ net = .ok)) := by
  unfold sendQuery at h
  unfold refuses
  cases hm : queryMessage cfg.appID cfg.openSocketID data with
  | error e =>
    rw [hm] at h
    cases h
  | ok sData =>
    rw [hm] at h
    simp only [TcpClient.sendData, TcpClient.writeWithLengthPrefix] at h
    cases hc : c.connected with
    | false => exact ⟨rfl, by simp⟩
    | true =>
      by_cases hlen : sData.length > MAX_MSG_SIZE
      · simp [TcpClient.packet, hlen, hc] at h
      · rw [TcpClient.packet_ok (Nat.le_of_not_lt hlen)] at h
        cases net with
        | ok =>
          simp only [hc, Bool.not_true, Bool.false_eq_true, if_false] at h
          cases h
          simp [hlen]
        | fails n =>
          simp only [hc, Bool.not_true, Bool.false_eq_true, if_false] at h
          cases h
          simp [hlen]

/-- The call is about to raise in `_query`. -/
def Pc.refused (cfg : QuerierConfig) (c : TcpClient) : Pc → Bool
  | .begun data _ => refuses cfg c data
  | _ => false

namespace QuerierThreads
variable {τ : Type} {cfg : QuerierConfig} {s u : QuerierThreads τ}

def connectionStep (cfg : QuerierConfig) (s : QuerierThreads τ) : ConnectionAct τ → Option (QuerierThreads τ)
  | .querier a => step cfg s a
  | .queryAsync data net => some { s with client := (sendQuery cfg.appID cfg.openSocketID s.client data net).1 }
  | .heartBeat net => some { s with client := (s.client.sendData heartbeat net).1 }
  | .badFrame => if s.receiving ∧ s.calling.isNone then some { s with client := s.client.disconnect } else none

def connectionSystem (cfg : QuerierConfig) : System (QuerierThreads τ) (ConnectionAct τ) := ⟨connectionStep cfg⟩

/-- If the client is not connected, the receive thread has ended and a call without timeout is blocked in
`query_event.wait`, the event is set. -/
def EventSet (s : QuerierThreads τ) : Prop :=
  s.client.connected = false → s.receiving = false → .waiting false ∈ s.calls → s.shared.queryEvent = true

/-- A call without timeout is blocked and the receive thread has ended. -/
def Deserted (s : QuerierThreads τ) : Prop := s.receiving = false ∧ .waiting false ∈ s.calls

instance (s : QuerierThreads τ) : Decidable (Deserted s) := inferInstanceAs (Decidable (_ ∧ _))

/-- The receive thread ends only while no call without timeout is blocked, unless it leaves `connected` set. Once such a
call is blocked and the thread has ended, no write fails and nobody disconnects. And such a call blocks only while the
client is connected or the receive thread runs. -/
def Attended (cfg : QuerierConfig) (s : QuerierThreads τ) : ConnectionAct τ → Prop
  | .querier .lose | .querier (.callbackRaises .socketError) => .waiting false ∉ s.calls
  | .querier (.callbackRaises .other) => .waiting false ∈ s.calls → s.client.connected = true
  | .querier (.wait k) => s.calls[k]? = some (.sent false) → s.shared.queryEvent = false →
      s.client.connected = true ∨ s.receiving = true
  | .querier (.send k net) => Deserted s → net = .ok ∨ ∀ p ∈ s.calls[k]?, p.refused cfg s.client = true
  | .queryAsync data net => Deserted s → net = .ok ∨ refuses cfg s.client data = true
  | .heartBeat net => Deserted s → net = .ok
  | .querier .disconnect => ¬ Deserted s
  | _ => True

/-- Who waits waits for an event that is not set. -/
def Unset (s : QuerierThreads τ) : Prop :=
  ∀ (k : Nat) (timed : Bool), s.calls[k]? = some (.waiting timed) → s.shared.queryEvent = false

instance (s : QuerierThreads τ) : (a : ConnectionAct τ) → Decidable (Attended cfg s a)
  | .querier .lose | .querier (.callbackRaises .socketError) => inferInstanceAs (Decidable (_ ∉ _))
  | .querier (.callbackRaises .other) | .heartBeat _ => inferInstanceAs (Decidable (_ → _))
  | .querier (.wait _) => inferInstanceAs (Decidable (_ → _ → _))
  | .querier (.send _ _) => inferInstanceAs (Decidable (_ → _ ∨ ∀ _ ∈ _, _))
  | .queryAsync _ _ => inferInstanceAs (Decidable (_ → _ ∨ _))
  | .querier .disconnect => inferInstanceAs (Decidable (¬ _))
  | .querier (.call _ _) | .querier (.timeout _) | .querier (.finish _) | .querier (.recv _) | .querier .callback
  | .querier .disconnectShared | .badFrame => inferInstanceAs (Decidable True)

theorem Unset.eventSet_iff (hI : Unset s) : EventSet s ↔ (Deserted s → s.client.connected = true) := by
  constructor
  · intro h hd
    obtain ⟨k, hk⟩ := List.mem_iff_getElem?.1 hd.2
    by_contra hc
    have := h (Bool.eq_false_iff.2 hc) hd.1 hd.2
    rw [hI k false hk] at this
    cases this
  · intro h hc hr hmem
    rw [h ⟨hr, hmem⟩] at hc
    cases hc

/-- What sends leaves a client down that is down. -/
theorem sendData_down {c : TcpClient} (hc : c.connected = false) (data : Bytes) (net : TcpClient.SendAll) :
    (c.sendData data net).1 = c := by
  simp [TcpClient.sendData, TcpClient.writeWithLengthPrefix, hc]

theorem sendQuery_down {c c' : TcpClient} {data : PyStr} {net : TcpClient.SendAll} {r : Except QueryError Unit}
    (h : sendQuery cfg.appID cfg.openSocketID c data net = (c', r)) (hc : c.connected = false) :
    c'.connected = false := by
  unfold sendQuery at h
  split at h
  · cases h
    exact hc
  · rename_i sData hm
    have hdown := sendData_down hc sData net
    split at h <;> rename_i hs <;> rw [hs] at hdown <;> cases h <;> rw [← hc] <;> exact congrArg _ hdown

theorem raised_down {c : TcpClient} (hc : c.connected = false) (e : Exn) : (raised c e).connected = false := by
  cases e with
  | socketError => rfl
  | other => exact hc

/-- A heartbeat is short enough to be written. -/
theorem heartBeat_connected {c : TcpClient} (hc : c.connected = true) (net : TcpClient.SendAll) :
    (c.sendData heartbeat net).1.connected = true ↔ net = .ok := by
  have hlen : heartbeat.length ≤ MAX_MSG_SIZE := by decide
  simp only [TcpClient.sendData, TcpClient.writeWithLengthPrefix, hc, TcpClient.packet_ok hlen]
  cases net <;> simp

/-- A call that moves on, but not to the wait. -/
theorem waiting_of_set {ps : List Pc} {j k : Nat} {p q : Pc} {timed : Bool} (hk : ps[k]? = some p)
    (hj : (ps.set k q)[j]? = some (.waiting timed)) (hq : q ≠ .waiting timed) : ps[j]? = some (.waiting timed) := by
  rcases (getElem?_set_iff hk).1 hj with ⟨-, rfl⟩ | ⟨-, hj⟩
  · exact absurd rfl hq
  · exact hj

theorem not_waiting_wake {ps : List Pc} {k : Nat} {timed : Bool} : (ps.map Pc.wake)[k]? ≠ some (.waiting timed) := by
  rw [List.getElem?_map]
  rcases ps[k]? with _ | p
  · nofun
  · cases p <;> nofun

/-- Nobody waits who did not before, and no event is set for those who do. -/
theorem Unset.keep (hI : Unset s) (hcalls : ∀ (k : Nat) (timed : Bool), u.calls[k]? = some (.waiting timed) →
    s.calls[k]? = some (.waiting timed)) (hevent : s.shared.queryEvent = false → u.shared.queryEvent = false) :
    Unset u := fun k timed hk => hevent (hI k timed (hcalls k timed hk))

/-- A step that leaves nobody deserted who was not, and `connected` as it is. -/
theorem EventSet.keep (hP : EventSet s) (hI : Unset s) (hU : Unset u) (hdeserted : Deserted u → Deserted s)
    (hconn : s.client.connected = true → u.client.connected = true) : EventSet u :=
  hU.eventSet_iff.2 fun hd => hconn (hI.eventSet_iff.1 hP (hdeserted hd))

/-- A write that may fail, beside calls that wait as before. -/
theorem eventSet_of_write (hI : Unset s) (hP : EventSet s) (hU : Unset u) (hdeserted : Deserted u ↔ Deserted s)
    {ok : Prop} (hconn : s.client.connected = true → (u.client.connected = true ↔ ok)) :
    EventSet u ↔ (Deserted s → ok) := by
  rw [hU.eventSet_iff, hdeserted]
  exact forall_congr' fun hd => hconn (hI.eventSet_iff.1 hP hd)

/-- A call that moves on, but not to the wait, beside a connection that stays as it is. -/
theorem eventSet_of_moved (hI : Unset s) (hP : EventSet s) {k : Nat} {p : Pc} (hk : s.calls[k]? = some p)
    (q : Pc) (hq : ∀ timed, q ≠ .waiting timed) (hcalls : u.calls = s.calls.set k q) (hclient : u.client = s.client)
    (hrecv : u.receiving = s.receiving) (hevent : s.shared.queryEvent = false → u.shared.queryEvent = false) :
    Unset u ∧ EventSet u := by
  have hwait : ∀ (j : Nat) (timed : Bool), u.calls[j]? = some (.waiting timed) → s.calls[j]? = some (.waiting timed) := by
    intro j timed hj
    rw [hcalls] at hj
    exact waiting_of_set hk hj (hq timed)
  have hU : Unset u := hI.keep hwait hevent
  refine ⟨hU, hP.keep hI hU (fun hd => ⟨hrecv.symm.trans hd.1, ?_⟩) fun hc => by rw [hclient, hc]⟩
  obtain ⟨j, hj⟩ := List.mem_iff_getElem?.1 hd.2
  exact List.mem_of_getElem? (hwait j false hj)

theorem deserted_set {k : Nat} {p q : Pc} {c : TcpClient} {requests : List Nat} (hk : s.calls[k]? = some p)
    (hp : p ≠ .waiting false) (hq : q ≠ .waiting false) :
    Deserted { s with client := c, calls := s.calls.set k q, requests := requests } ↔ Deserted s := by
  refine and_congr_right fun _ => ⟨fun h => ?_, fun h => ?_⟩ <;> obtain ⟨j, hj⟩ := List.mem_iff_getElem?.1 h
  · exact List.mem_of_getElem? (waiting_of_set hk hj hq)
  · refine List.mem_of_getElem? ((getElem?_set_iff hk).2 (.inr ⟨?_, hj⟩))
    rintro rfl
    exact hp (Option.some.inj (hk.symm.trans hj))

theorem unset_querier {a : QuerierAct τ} (hI : Unset s) (hP : EventSet s) (h : step cfg s a = some u) :
    Unset u ∧ (EventSet u ↔ Attended cfg s (.querier a)) := by
  have hall : Attended cfg s (.querier a) → Unset u ∧ EventSet u → Unset u ∧ (EventSet u ↔ Attended cfg s (.querier a)) :=
    fun ha hu => ⟨hu.1, iff_of_true hu.2 ha⟩
  have hwoken : Unset { u with calls := s.calls.map Pc.wake } ∧ EventSet { u with calls := s.calls.map Pc.wake } := by
    refine ⟨fun _ _ hj => absurd hj not_waiting_wake, fun _ _ hmem => ?_⟩
    obtain ⟨k, hk⟩ := List.mem_iff_getElem?.1 hmem
    exact absurd hk not_waiting_wake
  cases step_cases h with
  | call data timed =>
    have hcalls : ∀ {k : Nat} {p : Pc}, p ≠ .begun data timed →
        (s.calls ++ [.begun data timed])[k]? = some p → s.calls[k]? = some p :=
      fun hp hk => (getElem?_concat_iff.1 hk).resolve_left fun hnew => hp hnew.2
    have hU : Unset { s with shared := s.shared.begin, calls := s.calls ++ [.begun data timed] } :=
      hI.keep (fun _ _ hk => hcalls nofun hk) fun _ => rfl
    refine ⟨hU, iff_of_true (hP.keep hI hU (fun hd => ⟨hd.1, ?_⟩) id) trivial⟩
    obtain ⟨k, hk⟩ := List.mem_iff_getElem?.1 hd.2
    exact List.mem_of_getElem? (hcalls nofun hk)
  | @sent k data timed net c hk he =>
    obtain ⟨hpasses, hconn⟩ := sendQuery_returned he
    have hU := hI.keep (u := { s with
      client := c
      calls := s.calls.set k (.sent timed)
      requests := if s.client.connected ∧ net = .ok then s.requests ++ [k] else s.requests })
      (fun _ _ hj => waiting_of_set hk hj nofun) id
    refine ⟨hU, (eventSet_of_write hI hP hU (deserted_set hk nofun nofun) hconn).trans ?_⟩
    simp [Attended, hk, Pc.refused, hpasses]
  | @raised k data timed net c e hk he =>
    obtain ⟨rfl, hrefused⟩ := sendQuery_raised he
    obtain ⟨hU, hu⟩ := eventSet_of_moved (u := { s with calls := s.calls.set k .ended }) hI hP hk .ended (by simp)
      rfl rfl rfl id
    refine ⟨hU, iff_of_true hu fun _ => ?_⟩
    simp [hk, Pc.refused, hrefused]
  | @passed k timed hk he =>
    obtain ⟨hU, hu⟩ := eventSet_of_moved (u := { s with calls := s.calls.set k .woken }) hI hP hk .woken (by simp)
      rfl rfl rfl id
    refine ⟨hU, iff_of_true hu fun _ hno => ?_⟩
    rw [he] at hno
    cases hno
  | @blocked k timed hk he =>
    have hU : Unset { s with calls := s.calls.set k (.waiting timed) } := by
      intro j timed' hj
      rcases (getElem?_set_iff hk).1 hj with ⟨-, -⟩ | ⟨-, hj⟩
      · exact he
      · exact hI j timed' hj
    refine ⟨hU, hU.eventSet_iff.trans ⟨fun hall htimed _ => ?_, fun hatt hd => ?_⟩⟩
    · -- the call would be left alone
      rw [hk] at htimed
      cases htimed
      by_cases hr : s.receiving = true
      · exact .inr hr
      · exact .inl (hall ⟨Bool.eq_false_iff.2 hr, List.mem_of_getElem? ((getElem?_set_iff hk).2 (.inl ⟨rfl, rfl⟩))⟩)
    · obtain ⟨j, hj⟩ := List.mem_iff_getElem?.1 hd.2
      rcases (getElem?_set_iff hk).1 hj with ⟨rfl, hw⟩ | ⟨-, hj⟩
      · cases hw
        exact (hatt hk he).resolve_right (by simp [show s.receiving = false from hd.1])
      · exact hI.eventSet_iff.1 hP ⟨hd.1, List.mem_of_getElem? hj⟩
  | timeout hk => exact hall trivial (eventSet_of_moved hI hP hk .expired (by simp) rfl rfl rfl id)
  | returned hk => exact hall trivial (eventSet_of_moved hI hP hk .ended (by simp) rfl rfl rfl id)
  | timedOut hk => exact hall trivial (eventSet_of_moved hI hP hk .ended (by simp) rfl rfl rfl id)
  | stored hr hc hq ht => exact hall trivial hwoken
  | passedOn hr hc hn => exact hall trivial ⟨hI, hP⟩
  | callback hc => exact hall trivial ⟨hI, hP⟩
  | @callbackRaised m e hc =>
    have hU : Unset { s with
        callbacks := s.callbacks ++ [m]
        calling := none
        client := raised s.client e
        receiving := false } := hI
    refine ⟨hU, hU.eventSet_iff.trans ?_⟩
    cases e with
    | socketError => exact ⟨fun hall hmem => Bool.false_ne_true (hall ⟨rfl, hmem⟩), fun hno hd => absurd hd.2 hno⟩
    | other => exact ⟨fun hall hmem => hall ⟨rfl, hmem⟩, fun hatt hd => hatt hd.2⟩
  | lose hr hc =>
    have hU : Unset { s with client := { s.client with connected := false }, receiving := false } := hI
    exact ⟨hU, hU.eventSet_iff.trans ⟨fun hall hmem => Bool.false_ne_true (hall ⟨rfl, hmem⟩), fun hno hd => absurd hd.2 hno⟩⟩
  | disconnect =>
    have hU : Unset { s with client := s.client.disconnect, disconnecting := s.disconnecting + 1 } := hI
    exact ⟨hU, hU.eventSet_iff.trans ⟨fun hall hd => Bool.false_ne_true (hall hd), fun hno hd => absurd hd hno⟩⟩
  | disconnectShared hn => exact hall trivial hwoken

theorem unset_step {a : ConnectionAct τ} (hI : Unset s) (hP : EventSet s) (h : connectionStep cfg s a = some u) :
    Unset u ∧ (EventSet u ↔ Attended cfg s a) := by
  cases a with
  | querier a => exact unset_querier hI hP h
  | heartBeat net =>
    cases h
    have hU : Unset { s with client := (s.client.sendData heartbeat net).1 } := hI
    exact ⟨hU, eventSet_of_write hI hP hU .rfl fun hc => heartBeat_connected hc net⟩
  | queryAsync data net =>
    cases h
    have hU : Unset { s with client := (sendQuery cfg.appID cfg.openSocketID s.client data net).1 } := hI
    refine ⟨hU, eventSet_of_write hI hP hU .rfl fun hc => ?_⟩
    cases hs : sendQuery cfg.appID cfg.openSocketID s.client data net with
    | mk c r =>
      cases r with
      | error e =>
        obtain ⟨rfl, hrefused⟩ := sendQuery_raised hs
        exact iff_of_true hc (.inr hrefused)
      | ok _ =>
        obtain ⟨hpasses, hconn⟩ := sendQuery_returned hs
        simpa [hpasses] using hconn hc
  | badFrame =>
    simp only [connectionStep] at h
    split at h <;> cases h
    rename_i hr
    have hU : Unset { s with client := s.client.disconnect } := hI
    refine ⟨hU, iff_of_true (hU.eventSet_iff.2 fun hd => ?_) trivial⟩
    rw [show s.receiving = false from hd.1] at hr
    cases hr.1

/-- **`query_event` is set for whoever waits on a dead connection, throughout a run, exactly if** no step of
the run leaves a call without timeout alone. -/
theorem eventSet_throughout_iff {client : TcpClient} {receiving : Bool} {as : List (ConnectionAct τ)}
    {t : QuerierThreads τ}
    (h : (connectionSystem cfg).Runs (fun _ _ => True) (start client receiving) as t) :
    (connectionSystem cfg).Throughout EventSet (start client receiving) as ↔
      (connectionSystem cfg).Runs (Attended cfg) (start client receiving) as t := by
  have hI : Unset (start client receiving : QuerierThreads τ) := by simp [Unset, start]
  have hP : EventSet (start client receiving : QuerierThreads τ) := by simp [EventSet, start]
  exact h.throughout_iff_runs (fun hI hP hst => unset_step hI hP hst) hI hP

/-- An unsolicited message kills the receive thread. A question is answered before, another times out behind it, then the
peer is found gone. -/
def answeredBeforeEnd : List (ConnectionAct Nat) := [.querier (.call (str "a") false), .querier (.send 0 .ok),
  .querier (.wait 0), .querier (.recv 7), .querier (.finish 0), .querier (.recv 8), .querier (.callbackRaises .other),
  .querier (.call (str "b") true), .querier (.send 1 .ok), .querier (.wait 1), .heartBeat (.fails 3),
  .querier (.timeout 1), .querier (.finish 1)]

theorem eventSet_throughout_iff_answered :
    ∃ t, (connectionSystem ⟨none, none, true⟩).Runs (fun _ _ => True) (start .fresh true) answeredBeforeEnd t ∧
      t.receiving = false ∧ t.client.connected = false ∧
      (connectionSystem ⟨none, none, true⟩).Throughout EventSet (start .fresh true) answeredBeforeEnd := by
  obtain ⟨t, hrun, ht⟩ := (connectionSystem ⟨none, none, true⟩).exists_run (Attended ⟨none, none, true⟩)
    (start .fresh true) answeredBeforeEnd (fun t => t.receiving = false ∧ t.client.connected = false) (by decide +kernel)
  have hall : (connectionSystem ⟨none, none, true⟩).Runs (fun _ _ => True) (start .fresh true) answeredBeforeEnd t :=
    hrun.mono fun _ _ _ => trivial
  exact ⟨t, hall, ht.1, ht.2, (eventSet_throughout_iff hall).2 hrun⟩

/-- The peer closes while a call without timeout waits. -/
theorem left_waiting : ∃ (as : List (ConnectionAct Nat)) (t : QuerierThreads Nat),
    (connectionSystem ⟨none, none, false⟩).Runs (fun _ _ => True) (start .fresh true) as t ∧ ¬ EventSet t := by
  obtain ⟨t, hrun, hc, hr, hw, he⟩ := (connectionSystem ⟨none, none, false⟩).exists_run (fun _ _ => True)
    (start .fresh true : QuerierThreads Nat)
    [.querier (.call (str "a") false), .querier (.send 0 .ok), .querier (.wait 0), .querier .lose]
    (fun t => t.client.connected = false ∧ t.receiving = false ∧ .waiting false ∈ t.calls ∧ t.shared.queryEvent = false)
    (by decide +kernel)
  refine ⟨_, t, hrun, fun h => ?_⟩
  rw [h hc hr hw] at he
  cases he

end QuerierThreads
end KnotLink.Python
