import KnotLink.Lib.Run
import KnotLink.Python.Stream
/-!
# The receive thread among the others

`receive_data` and `_process_buffer` step by step, with a callback that may disconnect at any time and may raise, and
with what other threads do to the client meanwhile. The user's code runs below `except socket.error`
(tcpclient.py:100), which is meant for `recv`: a callback's `OSError` is taken for a failure of the socket, and any
other exception leaves `receive_data` with `connected` still set. `receiving_throughout_iff` says exactly when neither
happens; `receiveData_runs` connects the steps to `receive_data` as `TcpClient.lean` has it.
-/
namespace KnotLink.Python
open Lib

namespace TcpClient

/-- What a turn of `_process_buffer` finds before the callback. -/
inductive Extracted where
  | incomplete
  | malformed
  | message (msg buffer : Bytes)
  deriving DecidableEq, Repr

/-- A turn of `_process_buffer` up to the callback (tcpclient.py:112-131). -/
def extract (s : TcpClient) : Extracted :=
  if s.buffer.length < HEADER_LEN then .incomplete
  else if s.buffer.take MAGIC_LEN ≠ MAGIC then .malformed
  else
    let length := ofBE (slice s.buffer MAGIC_LEN HEADER_LEN)
    if length = 0 ∨ length > MAX_MSG_SIZE then .malformed
    else if s.buffer.length < HEADER_LEN + length then .incomplete
    else .message (slice s.buffer HEADER_LEN (HEADER_LEN + length)) (s.buffer.drop (HEADER_LEN + length))

/-- It reads the front of the buffer. -/
theorem extract_front (s : TcpClient) : extract s = match wireFront s.buffer with
    | .short => .incomplete
    | .bad => .malformed
    | .frame m r => .message m r := by
  refine Eq.trans ?_ (parse_front s.buffer (fun _ => Iff.rfl) _ _ _)
  rfl

theorem processTurn_extract (cb : Option Callback) (s : TcpClient) :
    processTurn cb s = match extract s with
      | .incomplete => .leave (s, none)
      | .malformed => .leave ({ s with connected := false, socketOpen := false }, none)
      | .message msg buffer =>
        if msg = heartbeatResponse then .again { s with buffer := buffer }
        else match handleReceivedData cb { s with buffer := buffer } msg with
          | (s, none) => .again s
          | (s, some e) => .leave (s, some e) := by
  rw [processTurn_callback, extract_front]
  cases wireFront s.buffer with
  | short | bad | frame m r => rfl

end TcpClient

/-- Where the receive thread stands. -/
inductive ReceivePc where
  /-- At `while self.connected`. -/
  | loop
  | receiving
  /-- At the top of the loop of `_process_buffer`. -/
  | parsing
  /-- Inside the callback. -/
  | calling
  /-- In `except socket.error`, before it looks at `connected`; the exception came from the callback or from `recv`. -/
  | caught (fromCallback : Bool)
  /-- Before `connected` is cleared. -/
  | clearing (fromCallback : Bool)
  | ended
  /-- An exception has left `receive_data`. -/
  | died
  deriving DecidableEq, Repr

structure ReceiveThread where
  client : TcpClient
  /-- Whether `received_data_callback` is set. -/
  callback : Bool
  pc : ReceivePc
  /-- The peer's connection is intact. -/
  peerUp : Bool
  /-- An exception of the callback has cleared `connected` while the peer's connection was intact. -/
  blamed : Bool
  deriving DecidableEq, Repr

inductive ReceiveAct where
  | check
  | recv (r : TcpClient.Recv)
  | parse
  | callbackDisconnects
  | callbackReturns
  | callbackRaises (e : Exn)
  | test
  | clear
  /-- Another thread sets the callback. -/
  | setCallback
  /-- Another thread calls `disconnect`. -/
  | disconnect
  /-- A write of another thread fails (tcpclient.py:70). -/
  | sendFails
  | peerLost
  deriving DecidableEq, Repr

namespace ReceiveThread

def start (client : TcpClient) (callback : Bool) : ReceiveThread := ⟨client, callback, .loop, true, false⟩

def step (s : ReceiveThread) : ReceiveAct → Option ReceiveThread
  | .check => if s.pc = .loop then some { s with pc := if s.client.connected then .receiving else .ended } else none
  | .recv r =>
    if s.pc = .receiving then match r with
      | .error => some { s with pc := .caught false }
      | .chunk c =>
        if c = [] then some { s with client := { s.client with connected := false }, pc := .ended }
        else some { s with client := { s.client with buffer := s.client.buffer ++ c }, pc := .parsing }
    else none
  | .parse =>
    if s.pc = .parsing then match s.client.extract with
      | .incomplete => some { s with pc := .loop }
      | .malformed => some { s with client := { s.client with connected := false, socketOpen := false }, pc := .loop }
      | .message msg buffer =>
        let client := { s.client with buffer := buffer }
        if msg = heartbeatResponse then some { s with client }
        else if s.callback then
          some { s with client := { client with received := client.received ++ [msg] }, pc := .calling }
        else some { s with client }
    else none
  | .callbackDisconnects => if s.pc = .calling then some { s with client := s.client.disconnect } else none
  | .callbackReturns => if s.pc = .calling then some { s with pc := .parsing } else none
  | .callbackRaises e =>
    if s.pc = .calling then some { s with pc := match e with
      | .socketError => .caught true
      | .other => .died }
    else none
  | .test => match s.pc with
    | .caught fromCallback => some { s with pc := if s.client.connected then .clearing fromCallback else .ended }
    | _ => none
  | .clear => match s.pc with
    | .clearing fromCallback => some { s with
        client := { s.client with connected := false }
        pc := .ended
        blamed := s.blamed || (fromCallback && s.client.connected && s.peerUp) }
    | _ => none
  | .setCallback => some { s with callback := true }
  | .disconnect => some { s with client := s.client.disconnect }
  | .sendFails => some { s with client := { s.client with connected := false } }
  | .peerLost => some { s with peerUp := false }

def system : System ReceiveThread ReceiveAct := ⟨step⟩

/-! ## The steps make up `receive_data` -/

/-- Where the thread stands when `_process_buffer` has ended. -/
def behind : Option Exn → ReceivePc
  | none => .loop
  | some .socketError => .caught true
  | some .other => .died

/-- Where it stands when it has read all there is. -/
def pcOf : TcpClient.ThreadState → ReceivePc
  | .receiving => .receiving
  | .ended => .ended
  | .died => .died

/-- A step of the thread by itself. -/
theorem runs_cons {s u t : ReceiveThread} {a : ReceiveAct} {as : List ReceiveAct} (hst : step s a = some u)
    (h : system.Runs (fun _ _ => True) u as t) : system.Runs (fun _ _ => True) s (a :: as) t := .cons trivial hst h

/-- A call of the callback. -/
theorem call_runs (cb : Callback) (s : TcpClient) (msg : Bytes) : ∃ as, system.Runs (fun _ _ => True)
    ⟨{ s with received := s.received ++ [msg] }, true, .calling, true, false⟩ as
    ⟨(TcpClient.handleReceivedData (some cb) s msg).1, true,
      match (TcpClient.handleReceivedData (some cb) s msg).2 with
      | none => .parsing
      | some e => behind (some e), true, false⟩ := by
  simp only [TcpClient.handleReceivedData]
  generalize cb (s.received ++ [msg]) = reaction
  obtain ⟨disc, raises⟩ := reaction
  have hend : ∀ c : TcpClient, ∃ as, system.Runs (fun _ _ => True) ⟨c, true, .calling, true, false⟩ as
      ⟨c, true, match raises with
        | none => .parsing
        | some e => behind (some e), true, false⟩ := by
    intro c
    cases raises with
    | none => exact ⟨[.callbackReturns], runs_cons rfl .nil⟩
    | some e => cases e with
      | socketError => exact ⟨[.callbackRaises .socketError], runs_cons rfl .nil⟩
      | other => exact ⟨[.callbackRaises .other], runs_cons rfl .nil⟩
  cases disc with
  | false => exact hend _
  | true =>
    obtain ⟨as, hrun⟩ := hend ({ s with received := s.received ++ [msg] } : TcpClient).disconnect
    exact ⟨.callbackDisconnects :: as, runs_cons rfl hrun⟩

/-- A turn of the parser. -/
theorem processTurn_runs (cb : Callback) (s : TcpClient) : ∃ as, system.Runs (fun _ _ => True)
    ⟨s, true, .parsing, true, false⟩ as
    (match TcpClient.processTurn (some cb) s with
      | .again s' => ⟨s', true, .parsing, true, false⟩
      | .leave (s', e) => ⟨s', true, behind e, true, false⟩) := by
  rw [TcpClient.processTurn_extract]
  cases hx : s.extract with
  | incomplete => exact ⟨[.parse], runs_cons (by simp [step, hx, behind]) .nil⟩
  | malformed => exact ⟨[.parse], runs_cons (by simp [step, hx, behind]) .nil⟩
  | message msg buffer =>
    dsimp only
    by_cases hb : msg = heartbeatResponse
    · rw [if_pos hb]
      exact ⟨[.parse], runs_cons (by simp [step, hx, hb]) .nil⟩
    · obtain ⟨as, hrun⟩ := call_runs cb { s with buffer := buffer } msg
      have hparse : step ⟨s, true, .parsing, true, false⟩ .parse =
          some ⟨{ s with buffer := buffer, received := s.received ++ [msg] }, true, .calling, true, false⟩ := by
        simp [step, hx, hb]
      rw [if_neg hb]
      refine ⟨.parse :: as, runs_cons hparse ?_⟩
      generalize TcpClient.handleReceivedData (some cb) { s with buffer := buffer } msg = p at hrun
      obtain ⟨s', _ | e⟩ := p <;> exact hrun

/-- `_process_buffer`. -/
theorem processBuffer_runs (cb : Callback) (s : TcpClient) : ∃ as, system.Runs (fun _ _ => True)
    ⟨s, true, .parsing, true, false⟩ as
    ⟨(TcpClient.processBuffer (some cb) s).1, true, behind (TcpClient.processBuffer (some cb) s).2, true, false⟩ := by
  induction s using Body.run_induct (b := TcpClient.processBody (some cb)) with
  | hleave s r h =>
    obtain ⟨as, hrun⟩ := processTurn_runs cb s
    rw [show TcpClient.processTurn (some cb) s = .leave r from h] at hrun
    rw [TcpClient.processBuffer, Body.run_leave h]
    exact ⟨as, hrun⟩
  | hagain s s' h ih =>
    obtain ⟨as, hrun⟩ := processTurn_runs cb s
    obtain ⟨bs, hrest⟩ := ih
    rw [show TcpClient.processTurn (some cb) s = .again s' from h] at hrun
    rw [TcpClient.processBuffer, Body.run_again h]
    exact ⟨as ++ bs, hrun.append hrest⟩

/-- An `OSError` of `recv` or of the callback, seen by a connected client or not. -/
theorem caught_runs (s : TcpClient) (fromCallback : Bool) : ∃ as t, system.Runs (fun _ _ => True)
    ⟨s, true, .caught fromCallback, true, false⟩ as t ∧ t.client = { s with connected := false } ∧ t.pc = .ended := by
  cases hc : s.connected with
  | false =>
    refine ⟨[.test], ⟨s, true, .ended, true, false⟩, runs_cons (by simp [step, hc]) .nil, ?_, rfl⟩
    rw [← hc]
  | true =>
    exact ⟨[.test, .clear], _, runs_cons (u := ⟨s, true, .clearing fromCallback, true, false⟩) (by simp [step, hc])
      (runs_cons rfl .nil), rfl, rfl⟩

/-- **The thread's own steps make up `receive_data`**, on whatever `recv` hands over. -/
theorem receiveData_runs (cb : Callback) (s : TcpClient) (rs : List TcpClient.Recv) : ∃ as t,
    system.Runs (fun _ _ => True) (start s true) as t ∧ t.client = (TcpClient.receiveData (some cb) s rs).1 ∧
      t.pc = pcOf (TcpClient.receiveData (some cb) s rs).2 := by
  induction rs generalizing s with
  | nil =>
    refine ⟨[.check], _, runs_cons rfl .nil, rfl, ?_⟩
    cases hc : s.connected <;> simp [start, TcpClient.receiveData, pcOf, hc]
  | cons r rs ih =>
    rw [TcpClient.receiveData]
    by_cases hc : s.connected = true
    · have hcheck : step (start s true) .check = some ⟨s, true, .receiving, true, false⟩ := by simp [start, step, hc]
      rw [if_pos hc]
      cases r with
      | error =>
        obtain ⟨as, t, hrun, hclient, hpc⟩ := caught_runs s false
        exact ⟨_, t, runs_cons hcheck (runs_cons (a := .recv .error) rfl hrun), hclient, hpc⟩
      | chunk c =>
        rw [TcpClient.receiveTurn]
        by_cases hne : c = []
        · rw [if_pos hne]
          exact ⟨_, _, runs_cons hcheck (runs_cons (a := .recv (.chunk c)) (by simp [step, hne]; rfl) .nil), rfl, rfl⟩
        · obtain ⟨as, hparse⟩ := processBuffer_runs cb { s with buffer := s.buffer ++ c }
          have hrecv := runs_cons hcheck (runs_cons (a := .recv (.chunk c)) (by simp [step, hne]) hparse)
          rw [if_neg hne]
          generalize TcpClient.processBuffer (some cb) { s with buffer := s.buffer ++ c } = p at hrecv
          obtain ⟨s', _ | _ | _⟩ := p
          · obtain ⟨bs, t, hrun, ht⟩ := ih s'
            exact ⟨_, t, hrecv.append hrun, ht⟩
          · obtain ⟨bs, t, hrun, ht⟩ := caught_runs s' true
            exact ⟨_, t, hrecv.append hrun, ht⟩
          · exact ⟨_, _, hrecv, rfl, rfl⟩
    · have hc : s.connected = false := by simpa using hc
      exact ⟨[.check], _, runs_cons rfl .nil, by simp [start, hc], by simp [start, hc, pcOf]⟩

/-! ## Connected and receiving -/

/-- If the client is connected the receive thread is alive, and no exception of the callback has ended an intact
connection. -/
structure Receiving (s : ReceiveThread) : Prop where
  alive : s.client.connected = true → s.pc ≠ .ended ∧ s.pc ≠ .died
  blameless : s.blamed = false

/-- An exception of the callback that is no `OSError` comes when the client is not connected any more; one that is an
`OSError` finds the client or the peer gone when `connected` is cleared. -/
def Harmless (s : ReceiveThread) : ReceiveAct → Prop
  | .callbackRaises .other => s.client.connected = false
  | .clear => s.pc = .clearing true → s.client.connected = true → s.peerUp = false
  | _ => True

instance (s : ReceiveThread) : (a : ReceiveAct) → Decidable (Harmless s a)
  | .callbackRaises .other => inferInstanceAs (Decidable (_ = _))
  | .clear => inferInstanceAs (Decidable (_ → _ → _))
  | .callbackRaises .socketError | .check | .recv _ | .parse | .callbackDisconnects | .callbackReturns | .test
  | .setCallback | .disconnect | .sendFails | .peerLost => inferInstanceAs (Decidable True)

variable {s u : ReceiveThread} {a : ReceiveAct}

theorem Receiving.keep (hP : Receiving s) (hup : u.client.connected = true → s.client.connected = true)
    (hpc : u.client.connected = true → u.pc = s.pc ∨ (u.pc ≠ .ended ∧ u.pc ≠ .died)) (hb : u.blamed = s.blamed) :
    Receiving u := by
  refine ⟨fun hc => ?_, hb.trans hP.blameless⟩
  rcases hpc hc with h | h
  · rw [h]
    exact hP.alive (hup hc)
  · exact h

/-- Clearing `connected` is the callback's doing only behind its exception, on an intact connection. -/
theorem receiving_clear (hP : Receiving s) {fromCallback : Bool} (hpc : s.pc = .clearing fromCallback) :
    Receiving { s with
      client := { s.client with connected := false }
      pc := .ended
      blamed := s.blamed || (fromCallback && s.client.connected && s.peerUp) } ↔ Harmless s .clear := by
  constructor
  · rintro ⟨-, hb⟩ hcall hc
    obtain rfl : fromCallback = true := by simpa [hpc] using hcall
    simpa [hc, hP.blameless] using hb
  · intro hharm
    refine ⟨nofun, ?_⟩
    cases fromCallback with
    | false => simpa using hP.blameless
    | true =>
      cases hc : s.client.connected with
      | false => simpa using hP.blameless
      | true => simpa [hharm hpc hc] using hP.blameless

theorem receiving_step (hP : Receiving s) (h : step s a = some u) : Receiving u ↔ Harmless s a := by
  cases a with
  | check =>
    simp only [step] at h
    split at h <;> cases h
    refine iff_of_true (hP.keep id (fun hc => ?_) rfl) trivial
    have hc : s.client.connected = true := hc
    exact .inr (by simp [hc])
  | recv r =>
    simp only [step] at h
    split at h
    · cases r with
      | error =>
        cases h
        exact iff_of_true (hP.keep id (fun _ => .inr (by simp)) rfl) trivial
      | chunk c =>
        dsimp only at h
        split at h <;> cases h
        · exact iff_of_true (hP.keep nofun nofun rfl) trivial
        · exact iff_of_true (hP.keep id (fun _ => .inr (by simp)) rfl) trivial
    · cases h
  | parse =>
    simp only [step] at h
    split at h
    · split at h
      · cases h
        exact iff_of_true (hP.keep id (fun _ => .inr (by simp)) rfl) trivial
      · cases h
        exact iff_of_true (hP.keep nofun nofun rfl) trivial
      · split at h
        · cases h
          exact iff_of_true (hP.keep id (fun _ => .inl rfl) rfl) trivial
        · split at h <;> cases h
          · exact iff_of_true (hP.keep id (fun _ => .inr (by simp)) rfl) trivial
          · exact iff_of_true (hP.keep id (fun _ => .inl rfl) rfl) trivial
    · cases h
  | callbackDisconnects =>
    simp only [step] at h
    split at h <;> cases h
    exact iff_of_true (hP.keep nofun nofun rfl) trivial
  | callbackReturns =>
    simp only [step] at h
    split at h <;> cases h
    exact iff_of_true (hP.keep id (fun _ => .inr (by simp)) rfl) trivial
  | callbackRaises e =>
    simp only [step] at h
    split at h <;> cases h
    cases e with
    | socketError => exact iff_of_true (hP.keep id (fun _ => .inr (by simp)) rfl) trivial
    | other =>
      -- the thread dies and leaves `connected` as it is
      constructor
      · intro hu
        by_contra hc
        exact (hu.alive (by simpa [Harmless] using hc)).2 rfl
      · intro hdown
        have hdown : s.client.connected = false := hdown
        exact hP.keep id (fun hc => absurd (hdown.symm.trans hc) (by simp)) rfl
  | test =>
    simp only [step] at h
    split at h <;> cases h
    refine iff_of_true (hP.keep id (fun hc => ?_) rfl) trivial
    have hc : s.client.connected = true := hc
    exact .inr (by simp [hc])
  | clear =>
    simp only [step] at h
    split at h <;> cases h
    rename_i hpc
    exact receiving_clear hP hpc
  | setCallback =>
    cases h
    exact iff_of_true (hP.keep id (fun _ => .inl rfl) rfl) trivial
  | disconnect =>
    cases h
    exact iff_of_true (hP.keep nofun nofun rfl) trivial
  | sendFails =>
    cases h
    exact iff_of_true (hP.keep nofun nofun rfl) trivial
  | peerLost =>
    cases h
    exact iff_of_true (hP.keep id (fun _ => .inl rfl) rfl) trivial

/-- **Connected means still receiving, throughout a run, exactly if** every exception of the callback is harmless. -/
theorem receiving_throughout_iff {client : TcpClient} {callback : Bool} {as : List ReceiveAct} {t : ReceiveThread}
    (h : system.Runs (fun _ _ => True) (start client callback) as t) :
    system.Throughout Receiving (start client callback) as ↔ system.Runs Harmless (start client callback) as t :=
  h.throughout_iff_runs (I := fun _ => True) (fun _ hP hst => ⟨trivial, receiving_step hP hst⟩) trivial
    ⟨fun _ => ⟨nofun, nofun⟩, rfl⟩

/-- A message whose callback disconnects and then raises. -/
def raisesBehindDisconnect : List ReceiveAct := [.check, .recv (.chunk (frame (ascii "a"))), .parse, .callbackDisconnects,
  .callbackRaises .other]

theorem receiving_throughout_iff_disconnected : ∃ t, system.Runs Harmless (start .fresh true) raisesBehindDisconnect t ∧
    system.Throughout Receiving (start .fresh true) raisesBehindDisconnect := by
  obtain ⟨t, hrun, -⟩ := system.exists_run Harmless (start .fresh true) raisesBehindDisconnect (fun _ => True)
    (by decide +kernel)
  exact ⟨t, hrun, (receiving_throughout_iff (hrun.mono fun _ _ _ => trivial)).2 hrun⟩

/-- A callback that raises, say, a `KeyError` leaves a connected client without a receive thread; one that raises an
`OSError` ends an intact connection. -/
theorem connected_without_thread :
    (∃ as t, system.Runs (fun _ _ => True) (start .fresh true) as t ∧ t.client.connected = true ∧ t.pc = .died) ∧
    ∃ as t, system.Runs (fun _ _ => True) (start .fresh true) as t ∧ t.peerUp = true ∧ t.blamed = true := by
  constructor
  · obtain ⟨t, hrun, ht⟩ := system.exists_run (fun _ _ => True) (start .fresh true)
      [.check, .recv (.chunk (frame (ascii "a"))), .parse, .callbackRaises .other]
      (fun t => t.client.connected = true ∧ t.pc = .died) (by decide +kernel)
    exact ⟨_, t, hrun, ht⟩
  · obtain ⟨t, hrun, ht⟩ := system.exists_run (fun _ _ => True) (start .fresh true)
      [.check, .recv (.chunk (frame (ascii "a"))), .parse, .callbackRaises .socketError, .test, .clear]
      (fun t => t.peerUp = true ∧ t.blamed = true) (by decide +kernel)
    exact ⟨_, t, hrun, ht⟩

end ReceiveThread
end KnotLink.Python
