import KnotLink.Lib.Text
import KnotLink.ListenerSilence
/-!
# JavaScript `TcpClient` (TcpClient.js), the receiver

The data handler and `_processBuffer`, with a callback that may call `disconnect()` and may throw. What it throws goes
through the parser and out of the handler, which ends the process.
-/
namespace KnotLink.Js
open Lib

/-- What the callback does with one message: `disconnect()` or not, then return or throw. -/
structure Reaction where
  disconnects : Bool
  throws : Bool
  deriving DecidableEq, Repr

/-- A callback, given every message it was called with so far, the present one last. -/
abbrev Callback := List Bytes → Reaction

structure TcpClient where
  connected : Bool
  /-- `tcpSocket.destroy()` has not been called. -/
  socketOpen : Bool
  buffer : Bytes
  /-- The arguments of `receivedDataCallback`, in call order. -/
  delivered : List Bytes
  /-- What the callback threw has left the data handler. -/
  uncaught : Bool
  deriving DecidableEq, Repr

namespace TcpClient

/-- A client whose socket has connected. -/
def start : TcpClient := ⟨true, true, [], [], false⟩

/-- `disconnect` (TcpClient.js:134), the timer apart. -/
def disconnect (s : TcpClient) : TcpClient := { s with connected := false, socketOpen := false, buffer := [] }

/-- `this.receivedDataCallback(msg)`. -/
def receivedDataCallback (f : Callback) (s : TcpClient) (msg : Bytes) : TcpClient :=
  let s := { s with delivered := s.delivered ++ [msg] }
  let r := f s.delivered
  let s := if r.disconnects then s.disconnect else s
  { s with uncaught := r.throws }

/-- The body of the `while (true)` of `_processBuffer` (TcpClient.js:97-130). -/
def processTurn (callback : Option Callback) (s : TcpClient) : Turn TcpClient TcpClient :=
  if s.buffer.length < HEADER_LEN then .leave s
  else if s.buffer.take MAGIC_LEN ≠ MAGIC then .leave s.disconnect
  else
    let length := ofBE (slice s.buffer MAGIC_LEN HEADER_LEN)
    if length = 0 ∨ length > MAX_MSG_SIZE then .leave s.disconnect
    else if s.buffer.length < HEADER_LEN + length then .leave s
    else
      let msg := slice s.buffer HEADER_LEN (HEADER_LEN + length)
      let s := { s with buffer := s.buffer.drop (HEADER_LEN + length) }
      if Utf8.decodeReplace msg = "heartbeat_response".toList then .again s
      else match callback with
        | none => .again s
        | some f =>
          let s := receivedDataCallback f s msg
          if s.uncaught then .leave s else .again s

theorem decodeReplace_heartbeat {m : Bytes} :
    Utf8.decodeReplace m = "heartbeat_response".toList ↔ m = heartbeatResponse := by
  rw [Utf8.decodeReplace_eq_iff (by decide)]
  rfl

/-- One turn of the parser, told by the front of the buffer. -/
theorem processTurn_front (callback : Option Callback) (s : TcpClient) :
    processTurn callback s = match wireFront s.buffer with
      | .short => .leave s
      | .bad => .leave s.disconnect
      | .frame m r =>
        if m = heartbeatResponse then .again { s with buffer := r }
        else match callback with
          | none => .again { s with buffer := r }
          | some f =>
            if (receivedDataCallback f { s with buffer := r } m).uncaught then
              .leave (receivedDataCallback f { s with buffer := r } m)
            else .again (receivedDataCallback f { s with buffer := r } m) := by
  refine Eq.trans ?_ (parse_front s.buffer (fun _ => Iff.rfl) _ _ _)
  simp only [processTurn, decodeReplace_heartbeat]
  rfl

theorem length_receivedDataCallback (f : Callback) (s : TcpClient) (msg : Bytes) :
    (receivedDataCallback f s msg).buffer.length ≤ s.buffer.length := by
  unfold receivedDataCallback disconnect
  dsimp only
  split <;> simp

theorem processTurn_again {callback : Option Callback} {s s' : TcpClient} (h : processTurn callback s = .again s') :
    s'.buffer.length < s.buffer.length := by
  rw [processTurn_front] at h
  split at h
  · cases h
  · cases h
  · rename_i m r hf
    have hlt := wire.front_frame_length hf
    split at h
    · cases h
      exact hlt
    · split at h
      · cases h
        exact hlt
      · rename_i f
        split at h
        · cases h
        · cases h
          exact Nat.lt_of_le_of_lt (length_receivedDataCallback f _ m) hlt

/-- `_processBuffer` (TcpClient.js:94). -/
def processBody (callback : Option Callback) : Body TcpClient TcpClient where
  turn := processTurn callback
  measure s := s.buffer.length
  decreases := processTurn_again

def processBuffer (callback : Option Callback) (s : TcpClient) : TcpClient := (processBody callback).run s

/-- Chunks still come: the socket is not destroyed and the process lives. -/
def reading (s : TcpClient) : Bool := s.socketOpen && !s.uncaught

/-- The data handler (TcpClient.js:34). -/
def onData (callback : Option Callback) (s : TcpClient) (chunk : Bytes) : TcpClient :=
  if s.reading then processBuffer callback { s with buffer := s.buffer ++ chunk } else s

/-- The handler on a stream cut into chunks. -/
def onChunks (callback : Option Callback) (s : TcpClient) (chunks : List Bytes) : TcpClient :=
  chunks.foldl (onData callback) s

/-! ## The receiver is one that `disconnect` silences -/

def view : View TcpClient := ⟨reading, buffer, delivered, isMessage⟩

/-- The callback ends the run: it disconnects, or throws. -/
def stops (f : Callback) (ms : List Bytes) : Bool := (f ms).disconnects || (f ms).throws

def disconnects (f : Callback) (ms : List Bytes) : Bool := (f ms).disconnects

/-- A call that neither disconnects nor throws. -/
theorem receivedDataCallback_stays {f : Callback} {s : TcpClient} {m : Bytes} (hs : s.uncaught = false)
    (h : stops f (s.delivered ++ [m]) = false) :
    receivedDataCallback f s m = { s with delivered := s.delivered ++ [m] } := by
  obtain ⟨hdisc, hthrows⟩ := Bool.or_eq_false_iff.1 h
  simp [receivedDataCallback, hdisc, hthrows, hs]

/-- A call that does. -/
theorem receivedDataCallback_stops {f : Callback} {s : TcpClient} {m : Bytes} (h : stops f (s.delivered ++ [m]) = true) :
    (receivedDataCallback f s m).reading = false ∧ (receivedDataCallback f s m).delivered = s.delivered ++ [m] ∧
      (disconnects f (s.delivered ++ [m]) = true → (receivedDataCallback f s m).buffer = []) := by
  simp only [stops, Bool.or_eq_true] at h
  simp only [receivedDataCallback, disconnect, reading, disconnects]
  cases hdisc : (f (s.delivered ++ [m])).disconnects with
  | true => simp
  | false =>
    have hthrows : (f (s.delivered ++ [m])).throws = true := h.resolve_left (by simp [hdisc])
    simp [hthrows]

/-- A turn that calls the callback. -/
theorem processTurn_message {f : Callback} {s : TcpClient} {m r : Bytes} (hf : wireFront s.buffer = .frame m r)
    (hm : isMessage m = true) :
    processTurn (some f) s = if (receivedDataCallback f { s with buffer := r } m).uncaught then
        .leave (receivedDataCallback f { s with buffer := r } m)
      else .again (receivedDataCallback f { s with buffer := r } m) := by
  have hb : m ≠ heartbeatResponse := by simpa [isMessage] using hm
  rw [processTurn_front, hf]
  exact if_neg hb

theorem processBody_serves (f : Callback) :
    view.Serves (stops f) (disconnects f) (processBody (some f)) (fun r s => r = s) where
  short {s} hs hf := by
    have ht := processTurn_front (some f) s
    rw [show wireFront s.buffer = .short from hf] at ht
    exact ⟨s, s, ht, rfl, hs, rfl, rfl⟩
  bad {s} hs hf := by
    have ht := processTurn_front (some f) s
    rw [show wireFront s.buffer = .bad from hf] at ht
    exact ⟨s.disconnect, s.disconnect, ht, rfl, rfl, rfl⟩
  skip {s m r} hs hf hm := by
    have ht := processTurn_front (some f) s
    rw [show wireFront s.buffer = .frame m r from hf] at ht
    have hb : m = heartbeatResponse := by simpa [isMessage] using hm
    exact ⟨{ s with buffer := r }, ht.trans (if_pos hb), hs, rfl, rfl⟩
  deliver {s m r} hs hf hm hstop := by
    have ht := processTurn_message (f := f) hf hm
    have hu : s.uncaught = false := by simpa using (Bool.and_eq_true_iff.1 hs).2
    rw [receivedDataCallback_stays (s := { s with buffer := r }) hu hstop] at ht
    exact ⟨_, ht.trans (if_neg (by simp [hu])), hs, rfl, rfl⟩
  stop {s m r} hs hf hm hstop := by
    have ht := processTurn_message (f := f) hf hm
    obtain ⟨hdown, hdel, hbuf⟩ := receivedDataCallback_stops (s := { s with buffer := r }) hstop
    have hthrows : (receivedDataCallback f { s with buffer := r } m).uncaught = (f (s.delivered ++ [m])).throws := rfl
    generalize receivedDataCallback f { s with buffer := r } m = t at ht hdown hdel hbuf hthrows
    refine ⟨t, ?_, hdown, hdel, hbuf⟩
    cases hu : t.uncaught with
    | true =>
      rw [hu, if_pos rfl] at ht
      exact Body.run_leave ht
    | false =>
      -- it has disconnected: the loop finds the buffer empty
      rw [hu, if_neg (by simp)] at ht
      have hdisc : disconnects f (s.delivered ++ [m]) = true := by
        have hstop : (f (s.delivered ++ [m])).disconnects = true ∨ (f (s.delivered ++ [m])).throws = true :=
          Bool.or_eq_true_iff.1 hstop
        exact hstop.resolve_right (by simp [← hthrows, hu])
      have hend := processTurn_front (some f) t
      rw [hbuf hdisc] at hend
      exact (Body.run_again ht).trans (Body.run_leave hend)

theorem onData_feeds (callback : Option Callback) :
    view.Feeds (processBody callback) (fun r s => r = s) (onData callback) where
  down {s} c hs := if_neg (by simpa [view] using hs)
  up {s} c hs := ⟨{ s with buffer := s.buffer ++ c }, hs, rfl, rfl, fun s' h => (if_pos hs).trans h⟩

end TcpClient
end KnotLink.Js
