import KnotLink.Js.Send
import KnotLink.Lib.Run
/-!
# JavaScript `TcpClient` (TcpClient.js), event by event

Node calls what `connectToServer` has left with the socket: the `connect` callback, once, and the handlers of `data`,
`error` and `close`, which stay. A second `connectToServer` leaves a second set of them (TcpClient.js:25-53), so every
chunk is appended once for each call there has been. The heartbeat is an interval that `startHeartBeat` arms.

`connectToServer` is called while the socket is neither open nor about to close; what `connect` makes of another one is
for Node to say. The time between the peer's `end` and `close` is no state of its own: `connected` is set in it, and what
is given to `write` then is lost (`QuerierWaiters.lean`), so `written` is what `write` was given.

In every state at most one interval is armed, it is the one in `heartBeatTimer`, and a connected client has it
(`one_interval`). A stream comes out as it was sent exactly on a client that was connected once, where the callback
neither disconnects nor throws (`received_iff_connected_once`).
-/
namespace KnotLink.Js
open Lib

structure Client extends Writer where
  /-- `connectToServer` waits for `connect`. -/
  connecting : Bool
  /-- The socket is destroyed, and `close` is to come. -/
  closing : Bool
  /-- The `connect` callbacks that have not been called, each with what its own callback sends. -/
  onConnect : List (Option Bytes)
  /-- How many handlers `data`, `error` and `close` have. -/
  handlers : Nat
  heartBeatTimer : Option Nat
  /-- The intervals that are armed, and how many there have been. -/
  armed : List Nat
  intervals : Nat
  deriving DecidableEq, Repr

inductive Event where
  /-- The application calls `connectToServer`; its callback sends a key, or nothing. -/
  | connectToServer (callback : Option Bytes)
  | connect
  | data (chunk : Bytes)
  | error
  | close
  | interval (id : Nat)
  /-- The application calls `send_data` or `disconnect`. -/
  | sendData (data : Bytes)
  | disconnect
  deriving DecidableEq, Repr

/-- A call of `connectToServer`. -/
def Event.isConnectToServer : Event → Bool
  | .connectToServer _ => true
  | _ => false

namespace Client

/-- `new TcpClient()`. -/
def start : Client where
  client := ⟨false, false, [], [], false⟩
  written := []
  connecting := false
  closing := false
  onConnect := []
  handlers := 0
  heartBeatTimer := none
  armed := []
  intervals := 0

def withClient (s : Client) (client : TcpClient) : Client := { s with client }

/-- `if (this.heartBeatTimer) { clearInterval(this.heartBeatTimer); this.heartBeatTimer = null; }`. -/
def clearTimer (s : Client) : Client :=
  match s.heartBeatTimer with
  | none => s
  | some id => { s with armed := s.armed.filter (· ≠ id), heartBeatTimer := none }

/-- `startHeartBeat` (TcpClient.js:86-91). -/
def startHeartBeat (s : Client) : Client :=
  let s := s.clearTimer
  { s with heartBeatTimer := some s.intervals, armed := s.armed ++ [s.intervals], intervals := s.intervals + 1 }

/-- `sendHeartBeat` (TcpClient.js:72-83). -/
def sendHeartBeat (s : Client) : Client :=
  if s.client.connected then { s with toWriter := (s.writeWithLengthPrefix heartbeat).1 } else s.clearTimer

/-- The callback of `connect` (TcpClient.js:26-31); what the application's own callback throws ends the process. -/
def connected (s : Client) (callback : Option Bytes) : Client :=
  if s.client.uncaught then s
  else
    let s := (s.withClient { s.client with connected := true }).startHeartBeat
    match callback with
    | none => s
    | some key =>
      match s.toWriter.sendData key with
      | (w, .ok ()) => { s with toWriter := w }
      | (w, .error _) => { s with toWriter := { w with client := { w.client with uncaught := true } } }

/-- A handler of `data` (TcpClient.js:34-38). -/
def handler (callback : Option Callback) (chunk : Bytes) (c : TcpClient) : TcpClient :=
  if c.uncaught then c else TcpClient.processBuffer callback { c with buffer := c.buffer ++ chunk }

/-- The socket has been destroyed on the way: the timer is cleared, and `close` is to come. -/
def destroyed (s : Client) : Client := { s.clearTimer with connecting := false, closing := true }

def step (callback : Option Callback) (s : Client) (e : Event) : Option Client :=
  if s.client.uncaught then none
  else match e with
    | .connectToServer cb =>
      -- called when there is no connection
      if s.client.socketOpen ∨ s.closing then none
      else some { s.withClient { s.client with socketOpen := true } with
        connecting := true
        onConnect := s.onConnect ++ [cb]
        handlers := s.handlers + 1 }
    | .connect =>
      if s.connecting then some (s.onConnect.foldl connected { s with connecting := false, onConnect := [] }) else none
    | .data chunk =>
      if s.client.socketOpen ∧ s.connecting = false ∧ chunk ≠ [] then
        let t := s.withClient ((handler callback chunk)^[s.handlers] s.client)
        some (if t.client.socketOpen then t else t.destroyed)
      else none
    | .error =>
      if s.client.socketOpen then some { s.withClient { s.client with connected := false, socketOpen := false } with
        connecting := false
        closing := true }
      else none
    | .close =>
      -- the peer has closed, or the socket is destroyed
      if s.client.socketOpen ∨ s.closing then
        some { (s.withClient { s.client with connected := false, socketOpen := false }).clearTimer with
          connecting := false
          closing := false }
      else none
    | .interval id => if id ∈ s.armed then some s.sendHeartBeat else none
    | .sendData data => some { s with toWriter := (s.toWriter.sendData data).1 }
    | .disconnect =>
      let t := (s.withClient s.client.disconnect).clearTimer
      some { t with connecting := false, closing := s.closing || s.client.socketOpen }

def system (callback : Option Callback) : System Client Event := ⟨step callback⟩

/-! ## The interval -/

variable {callback : Option Callback} {s u : Client} {e : Event}

@[simp] theorem clearTimer_heartBeatTimer (s : Client) : s.clearTimer.heartBeatTimer = none := by
  unfold clearTimer
  split
  · assumption
  · rfl

@[simp] theorem clearTimer_toWriter (s : Client) : s.clearTimer.toWriter = s.toWriter := by
  unfold clearTimer
  split <;> rfl

@[simp] theorem clearTimer_closing (s : Client) : s.clearTimer.closing = s.closing := by
  unfold clearTimer
  split <;> rfl

@[simp] theorem clearTimer_connecting (s : Client) : s.clearTimer.connecting = s.connecting := by
  unfold clearTimer
  split <;> rfl

/-- The timer told by the intervals that are armed. -/
def Armed (s : Client) : Prop := s.armed = s.heartBeatTimer.toList

theorem Armed.clearTimer (h : Armed s) : s.clearTimer.armed = [] := by
  unfold Client.clearTimer
  split
  · rename_i ht
    rw [h, ht]
    rfl
  · rename_i id ht
    rw [Armed, ht] at h
    simp [h]

theorem Armed.cleared (h : Armed s) : Armed s.clearTimer := by
  rw [Armed, h.clearTimer, clearTimer_heartBeatTimer]
  rfl

theorem Armed.startHeartBeat (h : Armed s) : Armed s.startHeartBeat := by
  simp [Armed, Client.startHeartBeat, h.clearTimer]

/-- What holds between two events: one interval at most, the one in `heartBeatTimer`; a connected client has it, and
one that is not connected only until `close`. -/
structure Timed (s : Client) : Prop where
  armed : Armed s
  beats : s.client.connected = true → s.heartBeatTimer.isSome = true
  live : s.client.connected = true → s.client.socketOpen = true ∧ s.connecting = false
  stale : s.heartBeatTimer.isSome = true → s.client.connected = true ∨ s.closing = true
  opened : s.connecting = true → s.client.socketOpen = true

/-- Nothing is connected and nothing armed. -/
theorem timed_off (harmed : Armed s) (htimer : s.heartBeatTimer = none) (hconn : s.client.connected = false)
    (hopen : s.connecting = true → s.client.socketOpen = true) : Timed s where
  armed := harmed
  beats h := absurd (hconn.symm.trans h) (by simp)
  live h := absurd (hconn.symm.trans h) (by simp)
  stale h := by simp [htimer] at h
  opened := hopen

theorem client_sendData (w : Writer) (data : Bytes) : (w.sendData data).1.client = w.client := by
  cases hconn : w.client.connected with
  | false => rw [Writer.sendData_disconnected hconn]
  | true =>
    by_cases hlen : data.length ≤ MAX_MSG_SIZE
    · rw [Writer.sendData_ok hconn hlen]
    · rw [Writer.sendData_tooLong hconn (Nat.lt_of_not_le hlen)]

/-- Bytes are written. -/
theorem Timed.write (hI : Timed s) {w : Writer} (hw : w.client = s.client) : Timed { s with toWriter := w } where
  armed := hI.armed
  beats := by rw [hw]; exact hI.beats
  live := by rw [hw]; exact hI.live
  stale := by rw [hw]; exact hI.stale
  opened := by rw [hw]; exact hI.opened

/-! ### The `connect` callbacks -/

/-- Connected, or not yet because no callback has been called. -/
structure Calling (n : Nat) (s : Client) : Prop where
  armed : Armed s
  beats : s.client.connected = true → s.heartBeatTimer.isSome = true
  socket : s.client.socketOpen = true ∧ s.connecting = false
  stale : s.heartBeatTimer.isSome = true → s.client.connected = true ∨ s.closing = true
  handlers : s.handlers = n

theorem connected_calling {n : Nat} (h : Calling n s) (cb : Option Bytes) : Calling n (connected s cb) := by
  unfold connected
  split
  · exact h
  · have hon : Calling n (s.withClient { s.client with connected := true }).startHeartBeat := by
      have harmed : Armed (s.withClient { s.client with connected := true }) := h.armed
      refine ⟨harmed.startHeartBeat, fun _ => rfl, ?_, fun _ => .inl ?_, ?_⟩
      · simpa [startHeartBeat, withClient] using h.socket
      · simp [startHeartBeat, withClient]
      · have := h.handlers
        unfold startHeartBeat clearTimer
        split <;> exact this
    generalize (s.withClient { s.client with connected := true }).startHeartBeat = t at hon
    cases cb with
    | none => exact hon
    | some key =>
      cases hs : t.client.connected with
      | false =>
        simp only [Writer.sendData_disconnected hs]
        exact ⟨hon.armed, hon.beats, hon.socket, hon.stale, hon.handlers⟩
      | true =>
        by_cases hlen : key.length ≤ MAX_MSG_SIZE
        · simp only [Writer.sendData_ok hs hlen]
          exact ⟨hon.armed, hon.beats, hon.socket, hon.stale, hon.handlers⟩
        · simp only [Writer.sendData_tooLong hs (Nat.lt_of_not_le hlen)]
          exact ⟨hon.armed, hon.beats, hon.socket, hon.stale, hon.handlers⟩

theorem calling_foldl {n : Nat} (h : Calling n s) (cbs : List (Option Bytes)) : Calling n (cbs.foldl connected s) := by
  induction cbs generalizing s with
  | nil => exact h
  | cons cb cbs ih => exact ih (connected_calling h cb)

/-! ### The `data` handlers -/

/-- The client is as it was, or it has disconnected. -/
def Kept (c t : TcpClient) : Prop :=
  (t.connected = c.connected ∧ t.socketOpen = c.socketOpen) ∨ (t.connected = false ∧ t.socketOpen = false)

theorem kept_disconnect (c t : TcpClient) : Kept c t.disconnect := .inr ⟨rfl, rfl⟩

theorem kept_receivedDataCallback {c t : TcpClient} (h : Kept c t) (f : Callback) (msg : Bytes) :
    Kept c (TcpClient.receivedDataCallback f t msg) := by
  unfold TcpClient.receivedDataCallback
  dsimp only
  split
  · exact .inr ⟨rfl, rfl⟩
  · exact h

theorem kept_processBuffer {c t : TcpClient} (h : Kept c t) : Kept c (TcpClient.processBuffer callback t) := by
  have hturn : ∀ {t : TcpClient}, Kept c t → match TcpClient.processTurn callback t with
      | .again t' => Kept c t'
      | .leave t' => Kept c t' := by
    intro t ht
    rw [TcpClient.processTurn_front]
    cases wireFront t.buffer with
    | short => exact ht
    | bad => exact kept_disconnect c t
    | frame m r =>
      dsimp only
      by_cases hm : m = heartbeatResponse
      · rw [if_pos hm]
        exact ht
      · rw [if_neg hm]
        cases callback with
        | none => exact ht
        | some f =>
          have hcall : Kept c (TcpClient.receivedDataCallback f { t with buffer := r } m) :=
            kept_receivedDataCallback (t := { t with buffer := r }) ht f m
          dsimp only
          by_cases hu : (TcpClient.receivedDataCallback f { t with buffer := r } m).uncaught = true
          · rw [if_pos hu]
            exact hcall
          · rw [if_neg hu]
            exact hcall
  refine Body.run_rule (TcpClient.processBody callback) (I := Kept c) (Q := Kept c) ?_ ?_ h
  · intro t t' ht hagain
    have := hturn ht
    rwa [show TcpClient.processTurn callback t = .again t' from hagain] at this
  · intro t t' ht hleave
    have := hturn ht
    rwa [show TcpClient.processTurn callback t = .leave t' from hleave] at this

theorem kept_handlers (callback : Option Callback) (chunk : Bytes) (c : TcpClient) (n : Nat) :
    Kept c ((handler callback chunk)^[n] c) := by
  induction n with
  | zero => exact .inl ⟨rfl, rfl⟩
  | succ n ih =>
    rw [Function.iterate_succ_apply']
    generalize (handler callback chunk)^[n] c = t at ih
    unfold handler
    split
    · exact ih
    · exact kept_processBuffer (t := { t with buffer := t.buffer ++ chunk }) ih

/-! ### One event -/

theorem timed_step (hI : Timed s) (h : step callback s e = some u) : Timed u := by
  unfold step at h
  split at h
  · cases h
  · cases e with
    | connectToServer cb =>
      dsimp only at h
      split at h
      · cases h
      · rename_i hidle
        cases h
        rw [not_or] at hidle
        have hconn : s.client.connected = false := by
          rw [← Bool.not_eq_true]
          exact fun hc => hidle.1 (hI.live hc).1
        have htimer : s.heartBeatTimer = none := by
          rw [← Option.not_isSome_iff_eq_none]
          exact fun ht => (hI.stale ht).elim (by simp [hconn]) hidle.2
        exact timed_off hI.armed htimer hconn fun _ => rfl
    | connect =>
      dsimp only at h
      split at h
      · rename_i hconnecting
        cases h
        have hcalling : Calling s.handlers { s with connecting := false, onConnect := [] } :=
          ⟨hI.armed, hI.beats, ⟨hI.opened hconnecting, rfl⟩, hI.stale, rfl⟩
        have hall := calling_foldl hcalling s.onConnect
        exact ⟨hall.armed, hall.beats, fun _ => hall.socket, hall.stale, fun _ => hall.socket.1⟩
      · cases h
    | data chunk =>
      dsimp only at h
      split at h
      · rename_i hup
        cases h
        have hkept := kept_handlers callback chunk s.client s.handlers
        generalize (handler callback chunk)^[s.handlers] s.client = c at hkept
        rcases hkept with ⟨hconn, hopen⟩ | ⟨hconn, hopen⟩
        · rw [if_pos (by simp [withClient, hopen, hup.1])]
          refine ⟨hI.armed, fun hc => hI.beats (hconn.symm.trans hc), fun hc => ?_, fun ht => ?_, fun hc => ?_⟩
          · obtain ⟨ho, hcon⟩ := hI.live (hconn.symm.trans hc)
            exact ⟨hopen.trans ho, hcon⟩
          · exact (hI.stale ht).imp hconn.trans id
          · exact hopen.trans (hI.opened hc)
        · rw [if_neg (by simp [withClient, hopen])]
          have harmed : Armed (s.withClient c) := hI.armed
          exact timed_off harmed.cleared (clearTimer_heartBeatTimer _) (by simpa [destroyed, withClient] using hconn)
            (by simp [destroyed])
      · cases h
    | error =>
      dsimp only at h
      split at h
      · cases h
        exact ⟨hI.armed, by simp [withClient], by simp [withClient], fun _ => .inr rfl, by simp⟩
      · cases h
    | close =>
      dsimp only at h
      split at h
      · cases h
        have harmed : Armed (s.withClient { s.client with connected := false, socketOpen := false }) := hI.armed
        exact timed_off harmed.cleared (clearTimer_heartBeatTimer _) (by simp [withClient]) (by simp)
      · cases h
    | interval id =>
      dsimp only at h
      split at h
      · cases h
        unfold sendHeartBeat
        cases hconn : s.client.connected with
        | true =>
          rw [if_pos rfl]
          exact hI.write (client_sendData s.toWriter heartbeat)
        | false =>
          rw [if_neg (by simp)]
          refine timed_off hI.armed.cleared (clearTimer_heartBeatTimer s) (by simpa using hconn) fun hc => ?_
          rw [clearTimer_connecting] at hc
          simpa using hI.opened hc
      · cases h
    | sendData data =>
      cases h
      exact hI.write (client_sendData s.toWriter data)
    | disconnect =>
      cases h
      have harmed : Armed (s.withClient s.client.disconnect) := hI.armed
      exact timed_off harmed.cleared (clearTimer_heartBeatTimer _) (by simp [withClient, TcpClient.disconnect])
        (by simp)

theorem timed_start : Timed start := timed_off rfl rfl rfl (by simp [start])

/-- Not connected, nothing armed, and nothing written since. -/
structure Off (written : Bytes) (s : Client) : Prop where
  armed : Armed s
  timer : s.heartBeatTimer = none
  disconnected : s.client.connected = false
  written : s.written = written

theorem off_cleared {w : Bytes} {c : TcpClient} (harmed : Armed s) (hc : c.connected = false) (hw : s.written = w)
    (connecting closing : Bool) : Off w { (s.withClient c).clearTimer with connecting, closing } where
  armed := Armed.cleared (s := s.withClient c) harmed
  timer := clearTimer_heartBeatTimer _
  disconnected := by simpa [withClient] using hc
  written := by simpa [withClient] using hw

theorem off_step {w : Bytes} (hI : Off w s) (he : e ≠ .connect) (h : step callback s e = some u) : Off w u := by
  unfold step at h
  split at h
  · cases h
  · cases e with
    | connect => exact absurd rfl he
    | connectToServer cb =>
      dsimp only at h
      split at h
      · cases h
      · cases h
        exact ⟨hI.armed, hI.timer, hI.disconnected, hI.written⟩
    | data chunk =>
      dsimp only at h
      split at h
      · cases h
        have hconn : ((handler callback chunk)^[s.handlers] s.client).connected = false := by
          rcases kept_handlers callback chunk s.client s.handlers with ⟨hc, -⟩ | ⟨hc, -⟩
          · exact hc.trans hI.disconnected
          · exact hc
        split
        · exact ⟨hI.armed, hI.timer, hconn, hI.written⟩
        · exact off_cleared hI.armed hconn hI.written false true
      · cases h
    | error =>
      dsimp only at h
      split at h
      · cases h
        exact ⟨hI.armed, hI.timer, rfl, hI.written⟩
      · cases h
    | close =>
      dsimp only at h
      split at h
      · cases h
        exact off_cleared hI.armed rfl hI.written false false
      · cases h
    | interval id =>
      dsimp only at h
      split at h
      · rename_i hid
        rw [hI.armed, hI.timer] at hid
        cases hid
      · cases h
    | sendData data =>
      cases h
      rw [Writer.sendData_disconnected hI.disconnected]
      exact hI
    | disconnect =>
      cases h
      exact off_cleared hI.armed rfl hI.written false _

/-- A callback that neither disconnects nor throws. -/
def quiet : Callback := fun _ => ⟨false, false⟩

@[simp] theorem clearTimer_handlers (s : Client) : s.clearTimer.handlers = s.handlers := by
  unfold clearTimer
  split <;> rfl

theorem handlers_connected (s : Client) (cb : Option Bytes) : (connected s cb).handlers = s.handlers := by
  have hbeat : (s.withClient { s.client with connected := true }).startHeartBeat.handlers = s.handlers := by
    simp [startHeartBeat, withClient]
  unfold connected
  split
  · rfl
  · cases cb with
    | none => exact hbeat
    | some key =>
      dsimp only
      split <;> exact hbeat

/-- Every `connectToServer` leaves a handler, and nothing takes one away. -/
theorem handlers_step (h : step callback s e = some u) :
    u.handlers = s.handlers + if e.isConnectToServer then 1 else 0 := by
  unfold step at h
  split at h
  · cases h
  · cases e with
    | connectToServer cb =>
      dsimp only at h
      split at h <;> cases h
      rfl
    | connect =>
      dsimp only at h
      split at h
      · cases h
        have hall : ∀ (cbs : List (Option Bytes)) (t : Client), (cbs.foldl connected t).handlers = t.handlers := by
          intro cbs
          induction cbs with
          | nil => exact fun t => rfl
          | cons cb cbs ih =>
            intro t
            rw [List.foldl_cons, ih]
            exact handlers_connected t cb
        exact hall s.onConnect _
      · cases h
    | data chunk =>
      dsimp only at h
      split at h
      · cases h
        split
        · rfl
        · exact clearTimer_handlers _
      · cases h
    | error =>
      dsimp only at h
      split at h <;> cases h
      rfl
    | close =>
      dsimp only at h
      split at h <;> cases h
      exact clearTimer_handlers _
    | interval id =>
      dsimp only at h
      split at h
      · cases h
        unfold sendHeartBeat
        split
        · rfl
        · exact clearTimer_handlers s
      · cases h
    | sendData data =>
      cases h
      rfl
    | disconnect =>
      cases h
      exact clearTimer_handlers _

theorem handlers_run {as : List Event} (h : (system callback).Runs (fun _ _ => True) s as u) :
    u.handlers = s.handlers + as.countP Event.isConnectToServer := by
  induction h with
  | nil => rfl
  | @cons s u t e as _ hst _ ih =>
    rw [ih, handlers_step hst, List.countP_cons]
    omega

/-- The handler while the socket is open. -/
theorem handler_eq_onData {c : TcpClient} (hc : c.reading = true) (chunk : Bytes) :
    handler callback chunk c = c.onData callback chunk := by
  have hu : c.uncaught = false := by simpa using (Bool.and_eq_true_iff.1 hc).2
  rw [handler, TcpClient.onData, if_pos hc, hu, if_neg (by simp)]

theorem onChunks_follows {g : List Bytes} {c : TcpClient} {a : Codec.Receiver UInt8 Bytes}
    (h : TcpClient.view.Follows g c a) (chunks : List Bytes) :
    TcpClient.view.Follows g (c.onChunks (some quiet) chunks) (wire.feedAll a chunks) :=
  (TcpClient.onData_feeds (some quiet)).follows
    ((TcpClient.processBody_serves quiet).parses rfl fun _ => rfl) h chunks

/-- One handler reads the chunks as they come. -/
theorem data_run (hone : s.handlers = 1) {chunks : List Bytes}
    (h : (system callback).Runs (fun _ _ => True) s (chunks.map .data) u) :
    u.client = s.client.onChunks callback chunks := by
  induction chunks generalizing s with
  | nil =>
    cases h
    rfl
  | cons chunk chunks ih =>
    cases h with
    | @cons _ t _ _ _ _ hst hrest =>
      change step callback s (.data chunk) = some t at hst
      have hhandlers : t.handlers = s.handlers := handlers_step hst
      have hclient : t.client = s.client.onData callback chunk := by
        unfold step at hst
        split at hst
        · cases hst
        · rename_i hu
          dsimp only at hst
          split at hst
          · rename_i hup
            cases hst
            have hreading : s.client.reading = true := by simp [TcpClient.reading, hup.1, hu]
            rw [hone, Function.iterate_one, handler_eq_onData hreading]
            split <;> simp [withClient, destroyed]
          · cases hst
      rw [ih (hhandlers.trans hone) hrest, hclient]
      rfl

/-- A whole frame, `n` times over. -/
theorem handlers_frame {c : TcpClient} (hc : c.reading = true) (hbuf : c.buffer = []) {m : Bytes} (hm : Admissible m)
    (hmsg : isMessage m = true) (n : Nat) :
    let t := (handler (some quiet) (frame m))^[n] c
    t.reading = true ∧ t.buffer = [] ∧ t.delivered = c.delivered ++ List.replicate n m := by
  induction n with
  | zero => exact ⟨hc, hbuf, by simp⟩
  | succ n ih =>
    rw [Function.iterate_succ_apply']
    generalize (handler (some quiet) (frame m))^[n] c = t at ih
    obtain ⟨hread, hb, hdel⟩ := ih
    have h0 : TcpClient.view.Follows t.delivered t ⟨[], [], true⟩ := View.follows_fresh hread hb
    have hfollows := onChunks_follows h0 [frame m]
    obtain ⟨hup, hbuf', hdel'⟩ := hfollows.frames (List.forall_mem_singleton.2 hm) (by simp)
    rw [handler_eq_onData hread]
    refine ⟨hup, hbuf', ?_⟩
    have hkeep : [m].filter TcpClient.view.keep = [m] := by simp [TcpClient.view, hmsg]
    rw [hkeep] at hdel'
    rw [List.replicate_succ', ← List.append_assoc, ← hdel]
    exact hdel'

/-- **A stream comes out as it was sent exactly on a client that was connected once**, where the callback neither
disconnects nor throws. In any state with the socket open and nothing in the buffer: however what arrives is cut, the
messages of it are handed over, exactly if `connectToServer` has been called once so far; and a message that comes in a chunk of its own is handed over as many
times as there have been calls. -/
theorem received_iff_connected_once {as : List Event} (h : (system (some quiet)).Runs (fun _ _ => True) start as s)
    (hopen : s.client.reading = true) (hconn : s.connecting = false) (hbuf : s.client.buffer = []) :
    ((∀ (chunks : List Bytes) (t : Client), (system (some quiet)).Runs (fun _ _ => True) s (chunks.map .data) t →
        t.client.delivered = s.client.delivered ++ messages chunks.flatten) ↔
      as.countP Event.isConnectToServer = 1) ∧
    ∀ m, Admissible m → isMessage m = true → ∃ t, step (some quiet) s (.data (frame m)) = some t ∧
      t.client.delivered = s.client.delivered ++ List.replicate (as.countP Event.isConnectToServer) m := by
  have hcount : s.handlers = as.countP Event.isConnectToServer := by simpa [start] using handlers_run h
  have hframe : ∀ m, Admissible m → isMessage m = true → ∃ t, step (some quiet) s (.data (frame m)) = some t ∧
      t.client.delivered = s.client.delivered ++ List.replicate s.handlers m := by
    intro m hm hmsg
    obtain ⟨hread, -, hdel⟩ := handlers_frame hopen hbuf hm hmsg s.handlers
    have hboth := Bool.and_eq_true_iff.1 hopen
    have hsock := Bool.and_eq_true_iff.1 hread
    refine ⟨s.withClient ((handler (some quiet) (frame m))^[s.handlers] s.client), ?_, hdel⟩
    unfold step
    rw [if_neg (by simpa using hboth.2)]
    dsimp only
    rw [if_pos ⟨hboth.1, hconn, frame_ne_nil m⟩]
    exact congrArg some (if_pos hsock.1)
  rw [← hcount]
  refine ⟨⟨fun hall => ?_, fun hone chunks t hrun => ?_⟩, hframe⟩
  · have hm : Admissible [0x41] := by decide
    obtain ⟨t, hst, hdel⟩ := hframe [0x41] hm (by decide)
    have hmsgs : messages (frame [0x41]) = [[0x41]] := by
      have hsplit : wire.Split (frame [0x41]) [[0x41]] [] := by
        have := Codec.split_encodeAll (F := wire) (List.forall_mem_singleton.2 hm)
        simpa using this
      rw [messages_split hsplit]
      decide
    have hreceived := hall [frame [0x41]] t (.cons trivial hst .nil)
    rw [List.flatten_singleton, hmsgs, hdel, List.append_right_inj] at hreceived
    simpa using congrArg List.length hreceived
  · have h0 : TcpClient.view.Follows s.client.delivered s.client ⟨[], [], true⟩ := View.follows_fresh hopen hbuf
    rw [data_run hone hrun]
    have hdel := (onChunks_follows h0 chunks).delivered
    have hgot := feedAll_messages (b := []) (by simp) chunks
    rw [List.nil_append] at hgot
    rw [← hgot]
    exact hdel

/-- The first `connect` fails; after the second call a message comes in twice. -/
theorem received_iff_connected_once_again : ∃ s : Client,
    (system (some quiet)).Runs (fun _ _ => True) start
      [.connectToServer none, .error, .close, .connectToServer none, .connect] s ∧
    (s.client.reading = true ∧ s.connecting = false ∧ s.client.buffer = []) ∧
    ∃ t, step (some quiet) s (.data (frame (ascii "ok"))) = some t ∧ t.client.delivered = [ascii "ok", ascii "ok"] := by
  obtain ⟨s, hrun, hopen, hconn, hbuf, hdel⟩ := (system (some quiet)).exists_run (fun _ _ => True) start
    [.connectToServer none, .error, .close, .connectToServer none, .connect]
    (fun s => s.client.reading = true ∧ s.connecting = false ∧ s.client.buffer = [] ∧ s.client.delivered = [])
    (by decide +kernel)
  obtain ⟨t, hst, ht⟩ := (received_iff_connected_once hrun hopen hconn hbuf).2 (ascii "ok") (by decide) (by decide)
  rw [hdel] at ht
  exact ⟨s, hrun, ⟨hopen, hconn, hbuf⟩, t, hst, ht⟩

end Client
end KnotLink.Js
