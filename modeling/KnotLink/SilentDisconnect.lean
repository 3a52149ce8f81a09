import KnotLink.Java.TcpClient
import KnotLink.Js.TcpClient
/-!
# Silence after `disconnect`

In Java and in JavaScript `disconnect` replaces the receive buffer by an empty one. Both parsers have stored what they
consumed before they call the listener and read the field again behind it (TcpClient.java:155 and 180,
TcpClient.js:98 and 117), so a listener that disconnects is not called again (`silent_after_disconnect`).
-/
namespace KnotLink
open Lib

namespace Java.TcpClient

def disconnects (listener : Listener) (ms : List Bytes) : Bool := (listener ms).disconnects

theorem deliver_stays {listener : Listener} {s : TcpClient} {m : Bytes}
    (h : disconnects listener (s.delivered ++ [m]) = false) :
    deliver listener s m = { s with delivered := s.delivered ++ [m] } := by
  rw [disconnects] at h
  simp [deliver, h]

theorem deliver_disconnects {listener : Listener} {s : TcpClient} {m : Bytes}
    (h : disconnects listener (s.delivered ++ [m]) = true) :
    deliver listener s m = { s with delivered := s.delivered ++ [m] }.disconnect := by
  rw [disconnects] at h
  simp [deliver, h]

/-- A turn that calls the listener. -/
theorem processTurn_message (listener : Listener) {s : TcpClient} {m r : Bytes}
    (hf : wireFront s.buffer.contents = .frame m r) (hm : isMessage m = true) :
    ∃ buffer : ByteBuffer, buffer.contents = r ∧
      processTurn listener s = .again (deliver listener { s with buffer := buffer } m) := by
  have hb : m ≠ heartbeatResponse := by simpa [isMessage] using hm
  have hv := processTurn_view listener s
  rw [hf] at hv
  obtain ⟨buffer, hbuf, ht⟩ := hv
  exact ⟨buffer, hbuf, by rw [ht, if_neg hb]⟩

theorem processBody_serves (listener : Listener) :
    view.Serves (disconnects listener) (disconnects listener) (processBody listener) (fun e s => e = .returned s) where
  short {s} hs hf := by
    have hv := processTurn_view listener s
    rw [show wireFront s.buffer.contents = .short from hf] at hv
    exact ⟨_, s, hv, rfl, hs, rfl, rfl⟩
  bad {s} hs hf := by
    have hv := processTurn_view listener s
    rw [show wireFront s.buffer.contents = .bad from hf] at hv
    exact ⟨_, s.disconnect, hv, rfl, rfl, rfl⟩
  skip {s m r} hs hf hm := by
    have hb : m = heartbeatResponse := by simpa [isMessage] using hm
    have hv := processTurn_view listener s
    rw [show wireFront s.buffer.contents = .frame m r from hf] at hv
    obtain ⟨buffer, hbuf, ht⟩ := hv
    rw [if_pos hb] at ht
    exact ⟨{ s with buffer := buffer }, ht, hs, hbuf, rfl⟩
  deliver {s m r} hs hf hm hstop := by
    obtain ⟨buffer, hbuf, ht⟩ := processTurn_message listener hf hm
    rw [deliver_stays (s := { s with buffer := buffer }) hstop] at ht
    exact ⟨_, ht, hs, hbuf, rfl⟩
  stop {s m r} hs hf hm hstop := by
    obtain ⟨buffer, hbuf, ht⟩ := processTurn_message listener hf hm
    rw [deliver_disconnects (s := { s with buffer := buffer }) hstop] at ht
    let down : TcpClient := { s with delivered := s.delivered ++ [m], buffer := buffer }.disconnect
    -- the loop finds the buffer empty
    have hend : (processBody listener).turn down = .leave (.returned down) := rfl
    exact ⟨down, (Body.run_again ht).trans (Body.run_leave hend), rfl, rfl, fun _ => ByteBuffer.contents_empty⟩

theorem readTurn_feeds (listener : Listener) :
    view.Feeds (processBody listener) (fun e s => e = .returned s) (readTurn listener) where
  down {s} c hs := if_neg (by simpa [view] using hs)
  up {s} c hs := by
    refine ⟨{ s with buffer := .wrap (s.buffer.contents ++ c) }, hs, ByteBuffer.contents_wrap _, rfl, fun s' h => ?_⟩
    have hread : s.reading = true := hs
    rw [readTurn, if_pos hread, appendToBuffer_eq]
    dsimp only
    rw [processBuffer, h]

theorem silence (listener : Listener) (chunks : List Bytes) :
    let out := readChunks listener .connected chunks
    out.delivered = upTo (disconnects listener) [] (messages chunks.flatten) ∧
      ∀ done m more, out.delivered = done ++ m :: more → disconnects listener (done ++ [m]) = true →
        more = [] ∧ out.buffer.contents = [] ∧ ∀ later, readChunks listener .connected (chunks ++ later) = out :=
  (processBody_serves listener).silence (readTurn_feeds listener) (fun _ h => h) (s := .connected) rfl
    ByteBuffer.contents_empty rfl chunks

/-- What a listener that never disconnects is given. -/
theorem delivered_never {never : Listener} (h : ∀ ms, disconnects never ms = false) (chunks : List Bytes) :
    (readChunks never .connected chunks).delivered = messages chunks.flatten := by
  rw [(silence never chunks).1, upTo_of_each fun p _ _ => h _]

end Java.TcpClient

namespace Js.TcpClient

theorem silence (callback : Callback) (chunks : List Bytes) :
    let out := onChunks (some callback) .start chunks
    out.delivered = upTo (stops callback) [] (messages chunks.flatten) ∧
      ∀ done m more, out.delivered = done ++ m :: more → disconnects callback (done ++ [m]) = true →
        more = [] ∧ out.buffer = [] ∧ ∀ later, onChunks (some callback) .start (chunks ++ later) = out :=
  (processBody_serves callback).silence (onData_feeds (some callback)) (fun _ h => by simp_all [stops, disconnects])
    (s := .start) rfl rfl rfl chunks

theorem delivered_never {never : Callback} (h : ∀ ms, stops never ms = false) (chunks : List Bytes) :
    (onChunks (some never) .start chunks).delivered = messages chunks.flatten := by
  rw [(silence never chunks).1, upTo_of_each fun p _ _ => h _]

end Js.TcpClient

/-- **Silence after `disconnect`.** Over any stream, however it is cut, a listener is given what one that never
disconnects would get, up to the first message at which it disconnects (JavaScript: or throws, which ends the process).
Where it disconnects nothing follows: that message is the last one, the buffer is empty and no chunk changes
anything. -/
theorem silent_after_disconnect (chunks : List Bytes) :
    (∀ listener never : Java.Listener, (∀ ms, (never ms).disconnects = false) →
      let out := Java.TcpClient.readChunks listener .connected chunks
      out.delivered = upTo (fun ms => (listener ms).disconnects) []
          (Java.TcpClient.readChunks never .connected chunks).delivered ∧
        ∀ done m more, out.delivered = done ++ m :: more → (listener (done ++ [m])).disconnects = true →
          more = [] ∧ out.buffer.contents = [] ∧
          ∀ later, Java.TcpClient.readChunks listener .connected (chunks ++ later) = out) ∧
    (∀ callback never : Js.Callback, (∀ ms, never ms = ⟨false, false⟩) →
      let out := Js.TcpClient.onChunks (some callback) .start chunks
      out.delivered = upTo (fun ms => (callback ms).disconnects || (callback ms).throws) []
          (Js.TcpClient.onChunks (some never) .start chunks).delivered ∧
        ∀ done m more, out.delivered = done ++ m :: more → (callback (done ++ [m])).disconnects = true →
          more = [] ∧ out.buffer = [] ∧
          ∀ later, Js.TcpClient.onChunks (some callback) .start (chunks ++ later) = out) := by
  constructor
  · intro listener never hnever
    rw [Java.TcpClient.delivered_never hnever]
    exact Java.TcpClient.silence listener chunks
  · intro callback never hnever
    rw [Js.TcpClient.delivered_never fun ms => by rw [Js.TcpClient.stops, hnever ms]; rfl]
    exact Js.TcpClient.silence callback chunks

/-- Two messages in one chunk, the listener disconnects at the first: the second is not delivered. -/
example : (Js.TcpClient.onChunks (some fun _ => ⟨true, false⟩) .start
    [frame (ascii "a") ++ frame (ascii "b")]).delivered = [ascii "a"] := by decide +kernel

end KnotLink
