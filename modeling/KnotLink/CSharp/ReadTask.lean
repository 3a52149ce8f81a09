import KnotLink.CSharp.TcpClient
import KnotLink.Lib.Text
/-!
# C# `ReadLoopAsync` and what the callback throws (TcpClient.cs:94-163)

What `OnDataReceivedAsync` throws is caught around the call and goes to `ReportErrorAsync`, which hands it to
`OnErrorAsync` and writes it to standard error where that is unset or throws itself. What `TryExtractMessage` or the
socket throws ends the loop. The callback is called when the buffer has been put behind the message: `readLoop_same`
compares two callbacks that differ in what they throw, and `delivered_readLoop` says what reaches one that does not
dispose the client.

`Console.Error.WriteLine(ex.Message)` is taken to return.
-/
namespace KnotLink.CSharp
open Lib

inductive Exn where
  /-- Thrown by `OnDataReceivedAsync`. -/
  | callback
  | invalidData (e : InvalidData)
  | objectDisposed
  | socket
  deriving DecidableEq, Repr

/-- How far the client is disposed. -/
inductive Lifecycle where
  | live
  /-- `_disposed` is set and `_cts` is cancelled. -/
  | disposing
  /-- `_cts` and `_recvBuffer` are disposed as well. -/
  | disposed
  deriving DecidableEq, Repr

/-- The further of two. -/
def Lifecycle.after : Lifecycle → Lifecycle → Lifecycle
  | .disposed, _ | _, .disposed => .disposed
  | .disposing, _ | _, .disposing => .disposing
  | .live, .live => .live

/-- What one call of `OnDataReceivedAsync` does: how far it disposes the client, and whether it throws. -/
structure Reaction where
  disposal : Lifecycle
  throws : Bool
  deriving DecidableEq, Repr

/-- `OnDataReceivedAsync`, given the texts it was called with so far, the present one last. -/
abbrev Callback := List (List Char) → Reaction

/-- `OnErrorAsync`: whether it throws, given the exceptions it was called with so far. -/
abbrev ErrorHandler := List Exn → Bool

/-- What `ReadAsync` comes to. -/
inductive Arrival where
  /-- None is the peer's close. -/
  | bytes (chunk : Bytes)
  | operationCanceled
  | exception
  deriving DecidableEq, Repr

/-- How the `try` of `ReadLoopAsync` is left. -/
inductive TaskEnd where
  | peerClosed
  /-- `IsCancellationRequested` -/
  | cancelled
  | operationCanceled
  | threw (ex : Exn)
  deriving DecidableEq, Repr

structure LoopState where
  lifecycle : Lifecycle
  recvBuffer : MemoryStream
  /-- The arguments of `OnDataReceivedAsync`. -/
  delivered : List (List Char)
  exit : Option TaskEnd
  /-- `_cts.Cancel()` in the `finally` has thrown. -/
  faulted : Bool
  deriving DecidableEq, Repr

structure ReadTask where
  loop : LoopState
  /-- The arguments of `OnErrorAsync`. -/
  handled : List Exn
  stderr : List Exn
  deriving DecidableEq, Repr

def HEARTBEAT_RESPONSE : List Char := "heartbeat_response".toList

namespace ReadTask

def start : ReadTask := ⟨⟨.live, ⟨[], 0⟩, [], none, false⟩, [], []⟩

/-- `ReportErrorAsync` (TcpClient.cs:147-163). -/
def reportErrorAsync (onError : Option ErrorHandler) (t : ReadTask) (ex : Exn) : ReadTask :=
  match onError with
  | some handler =>
    let t := { t with handled := t.handled ++ [ex] }
    if handler t.handled then { t with stderr := t.stderr ++ [ex] } else t
  | none => { t with stderr := t.stderr ++ [ex] }

/-- `await OnDataReceivedAsync(text)`: what it does, and whether it throws. -/
def onDataReceivedAsync (callback : Callback) (s : LoopState) (text : List Char) : Except Exn Unit × LoopState :=
  let s := { s with delivered := s.delivered ++ [text] }
  let reaction := callback s.delivered
  (if reaction.throws then .error .callback else .ok (), { s with lifecycle := s.lifecycle.after reaction.disposal })

/-- The call in its `try` (TcpClient.cs:120-131). -/
def deliver (onData : Option Callback) (onError : Option ErrorHandler) (t : ReadTask) (text : List Char) : ReadTask :=
  match onData with
  | none => t
  | some callback =>
    match onDataReceivedAsync callback t.loop text with
    | (.ok (), loop) => { t with loop }
    | (.error ex, loop) => reportErrorAsync onError { t with loop } ex

/-- `while (TryExtractMessage(out msgBytes))` (TcpClient.cs:113-133); a disposed stream throws. -/
def extractTurn (onData : Option Callback) (onError : Option ErrorHandler) (t : ReadTask) :
    Turn ReadTask (Except Exn Unit × ReadTask) :=
  if t.loop.lifecycle = .disposed then .leave (.error .objectDisposed, t)
  else match tryExtractMessage t.loop.recvBuffer with
    | (recvBuffer, .error e) => .leave (.error (.invalidData e), { t with loop := { t.loop with recvBuffer } })
    | (recvBuffer, .ok none) => .leave (.ok (), { t with loop := { t.loop with recvBuffer } })
    | (recvBuffer, .ok (some msgBytes)) =>
      let text := Utf8.decodeReplace msgBytes
      let t := { t with loop := { t.loop with recvBuffer } }
      if text = HEARTBEAT_RESPONSE then .again t else .again (deliver onData onError t text)

theorem loop_reportErrorAsync (onError : Option ErrorHandler) (t : ReadTask) (ex : Exn) :
    (reportErrorAsync onError t ex).loop = t.loop := by
  unfold reportErrorAsync
  split
  · dsimp only
    split <;> rfl
  · rfl

/-- What is left of a call when its exception is caught. -/
theorem loop_deliver (callback : Callback) (onError : Option ErrorHandler) (t : ReadTask) (text : List Char) :
    (deliver (some callback) onError t text).loop = (onDataReceivedAsync callback t.loop text).2 := by
  simp only [deliver]
  split
  · rename_i loop h
    rw [h]
  · rename_i ex loop h
    rw [loop_reportErrorAsync, h]

theorem recvBuffer_deliver (onData : Option Callback) (onError : Option ErrorHandler) (t : ReadTask)
    (text : List Char) : (deliver onData onError t text).loop.recvBuffer = t.loop.recvBuffer := by
  cases onData with
  | none => rfl
  | some callback =>
    rw [loop_deliver]
    rfl

def extractBody (onData : Option Callback) (onError : Option ErrorHandler) :
    Body ReadTask (Except Exn Unit × ReadTask) where
  turn := extractTurn onData onError
  measure t := t.loop.recvBuffer.bytes.length
  decreases {t t'} h := by
    have hfront := tryExtractMessage_front t.loop.recvBuffer
    unfold extractTurn at h
    split at h
    · cases h
    cases hf : wireFront t.loop.recvBuffer.bytes with
    | short =>
      rw [hf] at hfront
      dsimp only at hfront
      rw [hfront] at h
      cases h
    | bad =>
      rw [hf] at hfront
      obtain ⟨e, hfront⟩ := hfront
      rw [hfront] at h
      cases h
    | frame m r =>
      rw [hf] at hfront
      dsimp only at hfront
      rw [hfront] at h
      have hlt : r.length < t.loop.recvBuffer.bytes.length := wire.front_frame_length hf
      dsimp only at h
      split at h <;> cases h
      · exact hlt
      · rw [recvBuffer_deliver]
        exact hlt

/-- The outer handlers and the `finally` (TcpClient.cs:137-145). -/
def finish (onError : Option ErrorHandler) (t : ReadTask) (e : TaskEnd) : ReadTask :=
  let t := match e with
    | .threw ex => if t.loop.lifecycle = Lifecycle.live then reportErrorAsync onError t ex else t
    | _ => t
  { t with loop := { t.loop with exit := some e, faulted := t.loop.lifecycle = Lifecycle.disposed } }

/-- Behind the inner `while`: an exception goes to the outer handlers, or the loop looks at its condition. -/
def resume (onError : Option ErrorHandler) : Except Exn Unit × ReadTask → ReadTask
  | (.ok (), t) => if t.loop.lifecycle = .live then t else finish onError t .cancelled
  | (.error ex, t) => finish onError t (.threw ex)

/-- One turn of the loop of `ReadLoopAsync`; past its end nothing is read. -/
def readStep (onData : Option Callback) (onError : Option ErrorHandler) (t : ReadTask) (a : Arrival) : ReadTask :=
  if t.loop.exit.isSome then t
  else match a with
    | .operationCanceled => finish onError t .operationCanceled
    | .exception => finish onError t (.threw .socket)
    | .bytes chunk =>
      if chunk = [] then finish onError t .peerClosed
      else resume onError ((extractBody onData onError).run
        { t with loop := { t.loop with recvBuffer := t.loop.recvBuffer.write chunk } })

def readLoop (onData : Option Callback) (onError : Option ErrorHandler) (arrivals : List Arrival) : ReadTask :=
  arrivals.foldl (readStep onData onError) start

/-! ## Two callbacks -/

section
variable {callback callback' : Callback} {onError onError' : Option ErrorHandler} {t t' : ReadTask}

variable (onError onError') in
theorem extractBody_same (heffects : ∀ texts, (callback texts).disposal = (callback' texts).disposal)
    (h : t.loop = t'.loop) :
    ((extractBody (some callback) onError).run t).1 = ((extractBody (some callback') onError').run t').1 ∧
      ((extractBody (some callback) onError).run t).2.loop =
        ((extractBody (some callback') onError').run t').2.loop := by
  refine Body.simulate (extractBody (some callback) onError) (extractBody (some callback') onError')
    (R := fun t t' => t.loop = t'.loop) (Q := fun p p' => p.1 = p'.1 ∧ p.2.loop = p'.2.loop) (fun {t t'} h => ?_) h
  change Body.Agree _ _ (extractTurn (some callback) onError t) (extractTurn (some callback') onError' t')
  unfold extractTurn
  rw [← h]
  by_cases hdisposed : t.loop.lifecycle = .disposed
  · simp only [hdisposed, if_true]
    exact .leave ⟨rfl, h⟩
  simp only [hdisposed, if_false]
  rcases tryExtractMessage t.loop.recvBuffer with ⟨b, e | _ | m⟩
  · exact .leave ⟨rfl, rfl⟩
  · exact .leave ⟨rfl, rfl⟩
  · by_cases hm : Utf8.decodeReplace m = HEARTBEAT_RESPONSE
    · simp only [hm, if_true]
      exact .again rfl
    · simp only [hm, if_false]
      refine .again ?_
      rw [loop_deliver, loop_deliver]
      simp only [onDataReceivedAsync, heffects]

theorem loop_finish (onError : Option ErrorHandler) (t : ReadTask) (e : TaskEnd) : (finish onError t e).loop =
    { t.loop with exit := some e, faulted := t.loop.lifecycle = Lifecycle.disposed } := by
  unfold finish
  cases e with
  | threw ex =>
    dsimp only
    split <;> simp [loop_reportErrorAsync]
  | peerClosed | cancelled | operationCanceled => rfl

theorem finish_same (h : t.loop = t'.loop) (e : TaskEnd) :
    (finish onError t e).loop = (finish onError' t' e).loop := by
  rw [loop_finish, loop_finish, h]

theorem resume_same {p p' : Except Exn Unit × ReadTask} (hres : p.1 = p'.1) (h : p.2.loop = p'.2.loop) :
    (resume onError p).loop = (resume onError' p').loop := by
  obtain ⟨res, t⟩ := p
  obtain ⟨res', t'⟩ := p'
  obtain rfl : res = res' := hres
  obtain h : t.loop = t'.loop := h
  cases res with
  | error ex => exact finish_same h (.threw ex)
  | ok =>
    simp only [resume, ← h]
    split
    · exact h
    · exact finish_same h .cancelled

theorem readStep_same (heffects : ∀ texts, (callback texts).disposal = (callback' texts).disposal)
    (h : t.loop = t'.loop) (a : Arrival) :
    (readStep (some callback) onError t a).loop = (readStep (some callback') onError' t' a).loop := by
  unfold readStep
  rw [← h]
  by_cases hexit : t.loop.exit.isSome = true
  · simp only [hexit, if_true]
    exact h
  simp only [hexit, Bool.false_eq_true, if_false]
  cases a with
  | operationCanceled => exact finish_same h _
  | exception => exact finish_same h _
  | bytes chunk =>
    by_cases hc : chunk = []
    · simp only [hc, if_true]
      exact finish_same h _
    · simp only [hc, if_false]
      have hwrite : ({ t with loop := { t.loop with recvBuffer := t.loop.recvBuffer.write chunk } } : ReadTask).loop =
          ({ t' with loop := { t.loop with recvBuffer := t.loop.recvBuffer.write chunk } } : ReadTask).loop := rfl
      obtain ⟨hres, hloop⟩ := extractBody_same onError onError' heffects hwrite
      exact resume_same hres hloop

variable (onError onError') in
/-- Callbacks that differ only in what they throw, with any two handlers of errors. -/
theorem readLoop_same (heffects : ∀ texts, (callback texts).disposal = (callback' texts).disposal)
    (arrivals : List Arrival) :
    (readLoop (some callback) onError arrivals).loop = (readLoop (some callback') onError' arrivals).loop := by
  have hall : ∀ {t t' : ReadTask}, t.loop = t'.loop → (arrivals.foldl (readStep (some callback) onError) t).loop =
      (arrivals.foldl (readStep (some callback') onError') t').loop := by
    induction arrivals with
    | nil => exact fun h => h
    | cons a as ih => exact fun h => ih (readStep_same heffects h a)
  exact hall rfl

end

/-! ## The task and the receive loop -/

/-- The text of a message is the heartbeat response exactly if its bytes are. -/
theorem decodeReplace_heartbeat {m : Bytes} : Utf8.decodeReplace m = HEARTBEAT_RESPONSE ↔ m = heartbeatResponse := by
  rw [Utf8.decodeReplace_eq_iff (by decide)]
  rfl

/-- The task has delivered the texts of what the receive loop has extracted. -/
structure Reads (t : ReadTask) (s : ReadLoop) : Prop where
  live : t.loop.lifecycle = .live
  recvBuffer : t.loop.recvBuffer = s.recvBuffer
  delivered : t.loop.delivered = (s.extracted.filter isMessage).map Utf8.decodeReplace
  exit : t.loop.exit.isSome = s.exit.isSome

section
variable {callback : Callback} {onError : Option ErrorHandler} {t : ReadTask} {s : ReadLoop}

theorem Reads.deliver (hstays : ∀ texts, (callback texts).disposal = .live) (h : Reads t s) {m : Bytes}
    (hm : m ≠ heartbeatResponse) {b : MemoryStream} :
    Reads (deliver (some callback) onError { t with loop := { t.loop with recvBuffer := b } } (Utf8.decodeReplace m))
      { s with recvBuffer := b, extracted := s.extracted ++ [m] } := by
  have hkeep : isMessage m = true := by simp [isMessage, hm]
  constructor <;> rw [loop_deliver] <;> simp only [onDataReceivedAsync]
  · rw [h.live, hstays]
    rfl
  · simp [h.delivered, hkeep]
  · exact h.exit

theorem Reads.setBuffer (h : Reads t s) (b : MemoryStream) :
    Reads { t with loop := { t.loop with recvBuffer := b } } { s with recvBuffer := b } :=
  ⟨h.live, rfl, h.delivered, h.exit⟩

theorem Reads.finish (h : Reads t s) (e : TaskEnd) (exit : LoopExit) :
    Reads (finish onError t e) { s with exit := some exit } := by
  constructor <;> rw [loop_finish]
  · exact h.live
  · exact h.recvBuffer
  · exact h.delivered
  · rfl

theorem resume_reads (hstays : ∀ texts, (callback texts).disposal = .live) (h : Reads t s) :
    Reads (resume onError ((extractBody (some callback) onError).run t)) (ReadLoop.extractBody.run s) := by
  refine Body.simulate (extractBody (some callback) onError) ReadLoop.extractBody
    (R := Reads) (Q := fun p s => Reads (resume onError p) s) (fun {t s} h => ?_) h
  change Body.Agree _ _ (extractTurn (some callback) onError t) (ReadLoop.extractTurn s)
  unfold extractTurn ReadLoop.extractTurn
  rw [if_neg (by simp [h.live]), h.recvBuffer]
  rcases tryExtractMessage s.recvBuffer with ⟨b, e | _ | m⟩
  · exact .leave ((h.setBuffer b).finish (.threw (.invalidData e)) (.threw e))
  · refine .leave ?_
    rw [resume, if_pos h.live]
    exact h.setBuffer b
  · by_cases hm : m = heartbeatResponse
    · simp only [decodeReplace_heartbeat, hm, if_true]
      exact .again ⟨h.live, rfl, by simp [h.delivered, isMessage], h.exit⟩
    · simp only [decodeReplace_heartbeat, hm, if_false]
      exact .again (h.deliver hstays hm)

theorem readStep_reads (hstays : ∀ texts, (callback texts).disposal = .live) (h : Reads t s) (chunk : Bytes) :
    Reads (readStep (some callback) onError t (.bytes chunk)) (ReadLoop.readStep s chunk) := by
  unfold readStep ReadLoop.readStep
  rw [h.exit]
  by_cases hexit : s.exit.isSome = true
  · simp only [hexit, if_true]
    exact h
  simp only [hexit, Bool.false_eq_true, if_false]
  by_cases hc : chunk = []
  · simp only [hc, if_true]
    exact h.finish .peerClosed .peerClosed
  · simp only [hc, if_false]
    rw [h.recvBuffer]
    exact resume_reads hstays (h.setBuffer _)

/-- A callback that does not dispose the client gets the text of every message the loop extracts, whatever it
throws. -/
theorem delivered_readLoop (hstays : ∀ texts, (callback texts).disposal = .live) (chunks : List Bytes) :
    (readLoop (some callback) onError (chunks.map .bytes)).loop.delivered =
      ((ReadLoop.readChunks .start chunks).extracted.filter isMessage).map Utf8.decodeReplace := by
  have hall : ∀ {t : ReadTask} {s : ReadLoop}, Reads t s →
      Reads ((chunks.map .bytes).foldl (readStep (some callback) onError) t) (chunks.foldl ReadLoop.readStep s) := by
    induction chunks with
    | nil => exact fun h => h
    | cons c cs ih => exact fun h => ih (readStep_reads hstays h c)
  exact (hall (t := start) (s := .start) ⟨rfl, rfl, rfl, rfl⟩).delivered

end
end ReadTask
end KnotLink.CSharp
