import KnotLink.Lib.Run
import KnotLink.Lib.Split
import KnotLink.Python.Responser
/-!
# The two threads of a Python `OpenSocketResponser`

The receive thread gives messages to `_internal_data_recv`, the worker runs `_process_queue`. A step of the
worker is its loop condition, a `get` that takes an entry or finds none, a call of the handler, a `sendBack` up to its
`sendall`, the `sendall`. Between the last two the connection may be lost: `connected` is read once
(tcpclient.py:61). What is sent is what the worker sends, the timer's heartbeats left out.
The handler may answer every call differently: `recvFunc n` is what it does when it is called for the
`n`-th time. Whatever it or `sendBack` raises ends the worker, since the `try` has no `except`
(OpenSocketResponser.py:63-69).
-/
namespace KnotLink.Python
open Lib

/-- Where the worker stands. -/
inductive Worker where
  /-- At the condition of the loop. -/
  | loop
  /-- In `data_queue.get`. -/
  | getting
  | handling (payload key : PyStr)
  /-- About to send the handler's answer. -/
  | answering (payload key response : PyStr)
  /-- In `sendall` with these bytes. -/
  | sending (payload key : PyStr) (bytes : Bytes)
  /-- The loop is over: the client is not connected. -/
  | ended
  /-- An exception has ended the thread. -/
  | dead (payload key : PyStr)
  deriving DecidableEq, Repr

namespace Worker

/-- The request in hand. -/
def item : Worker → List (PyStr × PyStr)
  | handling payload key | answering payload key _ | sending payload key _ | dead payload key => [(payload, key)]
  | loop | getting | ended => []

/-- The payload of the request in hand, once the handler was asked. -/
def asking : Worker → List PyStr
  | answering payload _ _ | sending payload _ _ | dead payload _ => [payload]
  | loop | getting | ended | handling _ _ => []

/-- The bytes in `sendall`. -/
def bytes : Worker → Bytes
  | sending _ _ bytes => bytes
  | loop | getting | handling _ _ | answering _ _ _ | ended | dead _ _ => []

end Worker

structure ResponserThreads where
  responser : OpenSocketResponser
  worker : Worker
  /-- The messages `_internal_data_recv` was given, in order. -/
  messages : List Bytes
  /-- The payloads the handler was called with, in order. -/
  asked : List PyStr
  deriving DecidableEq, Repr

inductive ResponserAct where
  | recv (data : Bytes)
  | check
  | get
  /-- `get` has waited half a second for nothing. -/
  | empty
  | handle
  | answer
  | sendall (net : TcpClient.SendAll)
  /-- `connected` is cleared: the connection is lost or closed. -/
  | lose
  deriving DecidableEq, Repr

/-- What `_internal_data_recv` is given in the step. -/
def ResponserAct.data? : ResponserAct → Option Bytes
  | .recv data => some data
  | .check | .get | .empty | .handle | .answer | .sendall _ | .lose => none

namespace ResponserThreads

def start (client : TcpClient) : ResponserThreads := ⟨⟨client, []⟩, .loop, [], []⟩

/-- `sendBack` up to the call of `sendall` (OpenSocketResponser.py:36-39, tcpclient.py:61-69): where the worker is
then. -/
def enter (s : ResponserThreads) (payload key response : PyStr) : Worker :=
  match encodeUtf8 (key ++ str "&*&"), encodeUtf8 response with
  | some sKeyBytes, some data =>
    if !s.responser.KLresponser.connected then .loop
    else match TcpClient.packet (sKeyBytes ++ data) with
      | .error _ => .dead payload key
      | .ok bytes => .sending payload key bytes
  | _, _ => .dead payload key

def step (recvFunc : Option (Nat → Handler)) (s : ResponserThreads) : ResponserAct → Option ResponserThreads
  | .recv data => some { s with responser := s.responser.internalDataRecv data, messages := s.messages ++ [data] }
  | .check =>
    match s.worker with
    | .loop => some { s with worker := if s.responser.KLresponser.connected then .getting else .ended }
    | _ => none
  | .get =>
    match s.worker, s.responser.dataQueue with
    | .getting, (payload, key) :: rest =>
      some { s with responser := { s.responser with dataQueue := rest }, worker := .handling payload key }
    | _, _ => none
  | .empty =>
    match s.worker, s.responser.dataQueue with
    | .getting, [] => some { s with worker := .loop }
    | _, _ => none
  | .handle =>
    match s.worker with
    | .handling payload key =>
      match recvFunc with
      | none => some { s with worker := .loop }
      | some f =>
        some { s with
          asked := s.asked ++ [payload]
          worker := match f s.asked.length payload with
            | .none => .loop
            | .str response => .answering payload key response
            -- `data.encode` raises before anything is sent
            | .notStr => .dead payload key
            | .raises => .dead payload key }
    | _ => none
  | .answer =>
    match s.worker with
    | .answering payload key response => some { s with worker := s.enter payload key response }
    | _ => none
  | .sendall net =>
    match s.worker, net with
    | .sending _ _ bytes, .ok => some { s with
        responser := { s.responser with
          KLresponser := { s.responser.KLresponser with sent := s.responser.KLresponser.sent ++ bytes } }
        worker := .loop }
    | .sending _ _ bytes, .fails n => some { s with
        responser := { s.responser with
          KLresponser := { s.responser.KLresponser with
            sent := s.responser.KLresponser.sent ++ bytes.take n, connected := false } }
        worker := .loop }
    | _, _ => none
  | .lose => some { s with
      responser := { s.responser with KLresponser := { s.responser.KLresponser with connected := false } } }

def system (recvFunc : Option (Nat → Handler)) : System ResponserThreads ResponserAct := ⟨step recvFunc⟩

/-- The connection stays up. -/
def Live (_ : ResponserThreads) : ResponserAct → Prop
  | .sendall net => net = .ok
  | .lose => False
  | _ => True

instance (s : ResponserThreads) : (a : ResponserAct) → Decidable (Live s a)
  | .sendall net => inferInstanceAs (Decidable (net = .ok))
  | .lose => inferInstanceAs (Decidable False)
  | .recv _ | .check | .get | .empty | .handle | .answer => inferInstanceAs (Decidable True)

/-! ## Requests and replies -/

/-- The payload and key of a message: around its first delimiter, the key UTF-8, the payload not empty. -/
def request? (data : Bytes) : Option (PyStr × PyStr) :=
  match cut? DELIMITER data with
  | none => none
  | some (key, payload) =>
    match decodeUtf8 key with
    | none => none
    | some key => if payload = [] then none else some (decodeUtf8Replace payload, key)

/-- The message of a reply: the key, the delimiter, the response. `none` where `sendBack` raises. -/
def reply? (response key : PyStr) : Option Bytes :=
  match encodeUtf8 (key ++ str "&*&"), encodeUtf8 response with
  | some key, some data => if (key ++ data).length ≤ MAX_MSG_SIZE then some (key ++ data) else none
  | _, _ => none

/-- What is sent for a handler's result; `none` where it ends the worker. -/
def outcome (result : HandlerResult) (key : PyStr) : Option (List Bytes) :=
  match result with
  | .none => some []
  | .str response => (reply? response key).map fun m => [m]
  | .notStr => none
  | .raises => none

theorem internalDataRecv_eq (s : OpenSocketResponser) (data : Bytes) :
    s.internalDataRecv data = { s with dataQueue := s.dataQueue ++ (request? data).toList } := by
  unfold OpenSocketResponser.internalDataRecv request? cut?
  cases indexOf? DELIMITER data with
  | none => simp
  | some keyEnd =>
    simp only [Option.map_some]
    cases decodeUtf8 (data.take keyEnd) with
    | none => simp
    | some key =>
      rw [show keyEnd + DELIMITER.length = keyEnd + 3 from rfl]
      by_cases h : data.drop (keyEnd + 3) = [] <;> simp [h]

/-- What `enter` comes to. -/
theorem enter_cases (s : ResponserThreads) (payload key response : PyStr) :
    (reply? response key = none ∧ s.enter payload key response = .dead payload key) ∨
    (s.responser.KLresponser.connected = false ∧ s.enter payload key response = .loop) ∨
    (s.responser.KLresponser.connected = true ∧
      ∃ m, reply? response key = some m ∧ s.enter payload key response = .sending payload key (frame m)) := by
  unfold reply? enter
  cases hkey : encodeUtf8 (key ++ str "&*&") with
  | none => exact .inl ⟨rfl, rfl⟩
  | some b =>
    cases hdata : encodeUtf8 response with
    | none => exact .inl ⟨rfl, rfl⟩
    | some d =>
      dsimp only
      cases hc : s.responser.KLresponser.connected with
      | false => exact .inr (.inl ⟨rfl, rfl⟩)
      | true =>
        by_cases hlen : (b ++ d).length ≤ MAX_MSG_SIZE
        · rw [TcpClient.packet_ok hlen]
          exact .inr (.inr ⟨rfl, b ++ d, if_pos hlen, rfl⟩)
        · have hlong : TcpClient.packet (b ++ d) = .error (TcpClient.tooLong (b ++ d).length) := if_pos (by omega)
          rw [hlong]
          exact .inl ⟨if_neg hlen, rfl⟩

/-! ## What a step can do -/

/-- The ways a step can go. -/
inductive Step (recvFunc : Option (Nat → Handler)) (s : ResponserThreads) : ResponserAct → ResponserThreads → Prop where
  | recv (data : Bytes) : Step recvFunc s (.recv data) { s with
      responser := { s.responser with dataQueue := s.responser.dataQueue ++ (request? data).toList }
      messages := s.messages ++ [data] }
  | entered (hw : s.worker = .loop) (hc : s.responser.KLresponser.connected = true) :
      Step recvFunc s .check { s with worker := .getting }
  | left (hw : s.worker = .loop) (hc : s.responser.KLresponser.connected = false) :
      Step recvFunc s .check { s with worker := .ended }
  | took {payload key : PyStr} {rest : List (PyStr × PyStr)} (hw : s.worker = .getting)
      (hq : s.responser.dataQueue = (payload, key) :: rest) : Step recvFunc s .get
      { s with responser := { s.responser with dataQueue := rest }, worker := .handling payload key }
  | empty (hw : s.worker = .getting) (hq : s.responser.dataQueue = []) :
      Step recvFunc s .empty { s with worker := .loop }
  | unheard {payload key : PyStr} (hw : s.worker = .handling payload key) (hf : recvFunc = none) :
      Step recvFunc s .handle { s with worker := .loop }
  | silent {payload key : PyStr} {f : Nat → Handler} (hw : s.worker = .handling payload key)
      (hf : recvFunc = some f) (hr : f s.asked.length payload = .none) :
      Step recvFunc s .handle { s with asked := s.asked ++ [payload], worker := .loop }
  | answered {payload key response : PyStr} {f : Nat → Handler} (hw : s.worker = .handling payload key)
      (hf : recvFunc = some f) (hr : f s.asked.length payload = .str response) :
      Step recvFunc s .handle { s with asked := s.asked ++ [payload], worker := .answering payload key response }
  | failed {payload key : PyStr} {f : Nat → Handler} (hw : s.worker = .handling payload key)
      (hf : recvFunc = some f) (hr : f s.asked.length payload = .notStr ∨ f s.asked.length payload = .raises) :
      Step recvFunc s .handle { s with asked := s.asked ++ [payload], worker := .dead payload key }
  | refused {payload key response : PyStr} (hw : s.worker = .answering payload key response)
      (hm : reply? response key = none) : Step recvFunc s .answer { s with worker := .dead payload key }
  | skipped {payload key response : PyStr} (hw : s.worker = .answering payload key response)
      (hc : s.responser.KLresponser.connected = false) : Step recvFunc s .answer { s with worker := .loop }
  | passed {payload key response : PyStr} {m : Bytes} (hw : s.worker = .answering payload key response)
      (hc : s.responser.KLresponser.connected = true) (hm : reply? response key = some m) :
      Step recvFunc s .answer { s with worker := .sending payload key (frame m) }
  | sent {payload key : PyStr} {bytes : Bytes} (hw : s.worker = .sending payload key bytes) :
      Step recvFunc s (.sendall .ok) { s with
        responser := { s.responser with
          KLresponser := { s.responser.KLresponser with sent := s.responser.KLresponser.sent ++ bytes } }
        worker := .loop }
  | cut {payload key : PyStr} {bytes : Bytes} (hw : s.worker = .sending payload key bytes) (n : Nat) :
      Step recvFunc s (.sendall (.fails n)) { s with
        responser := { s.responser with
          KLresponser := { s.responser.KLresponser with
            sent := s.responser.KLresponser.sent ++ bytes.take n, connected := false } }
        worker := .loop }
  | lose : Step recvFunc s .lose { s with
      responser := { s.responser with KLresponser := { s.responser.KLresponser with connected := false } } }

theorem step_cases {recvFunc : Option (Nat → Handler)} {s u : ResponserThreads} {a : ResponserAct}
    (h : step recvFunc s a = some u) : Step recvFunc s a u := by
  cases a with
  | recv data =>
    simp only [step, internalDataRecv_eq] at h
    cases h
    exact .recv data
  | check =>
    simp only [step] at h
    split at h
    · rename_i hw
      cases hc : s.responser.KLresponser.connected <;> rw [hc] at h <;> cases h
      · exact .left hw hc
      · exact .entered hw hc
    · cases h
  | get =>
    simp only [step] at h
    split at h
    · rename_i hw hq
      cases h
      exact .took hw hq
    · cases h
  | empty =>
    simp only [step] at h
    split at h
    · rename_i hw hq
      cases h
      exact .empty hw hq
    · cases h
  | handle =>
    simp only [step] at h
    split at h
    · rename_i payload key hw
      split at h
      · cases h
        exact .unheard hw rfl
      · rename_i f
        cases hr : f s.asked.length payload <;> simp only [hr] at h <;> cases h
        · exact .silent hw rfl hr
        · exact .answered hw rfl hr
        · exact .failed hw rfl (.inl hr)
        · exact .failed hw rfl (.inr hr)
    · cases h
  | answer =>
    simp only [step] at h
    split at h
    · rename_i payload key response hw
      rcases s.enter_cases payload key response with ⟨hm, he⟩ | ⟨hc, he⟩ | ⟨hc, m, hm, he⟩ <;> rw [he] at h <;> cases h
      · exact .refused hw hm
      · exact .skipped hw hc
      · exact .passed hw hc hm
    · cases h
  | sendall net =>
    simp only [step] at h
    split at h
    · rename_i hw
      cases h
      exact .sent hw
    · rename_i n hw
      cases h
      exact .cut hw n
    · cases h
  | lose =>
    cases h
    exact .lose

/-- With nothing in between, `sendBack` and its `sendall` do what `OpenSocketResponser.sendBack` does in one. -/
theorem exists_sendBack (recvFunc : Option (Nat → Handler)) {s : ResponserThreads} {payload key response : PyStr}
    (hw : s.worker = .answering payload key response) (net : TcpClient.SendAll) :
    ∃ as t, (system recvFunc).Runs (fun _ _ => True) s as t ∧
      t.responser = (s.responser.sendBack response key net).1 ∧
      t.worker = if (s.responser.sendBack response key net).2.isOk then .loop else .dead payload key := by
  have hanswer : (system recvFunc).step s .answer = some { s with worker := s.enter payload key response } := by
    simp only [system, step, hw]
  have hrun : (system recvFunc).Runs (fun _ _ => True) s [.answer]
      { s with worker := s.enter payload key response } := .cons trivial hanswer .nil
  obtain ⟨⟨⟨connected, socketOpen, buffer, received, sent⟩, queue⟩, w, messages, asked⟩ := s
  unfold enter at hrun
  unfold OpenSocketResponser.sendBack
  cases hkey : encodeUtf8 (key ++ str "&*&") with
  | none =>
    rw [hkey] at hrun
    exact ⟨_, _, hrun, rfl, rfl⟩
  | some b =>
    cases hdata : encodeUtf8 response with
    | none =>
      rw [hkey, hdata] at hrun
      exact ⟨_, _, hrun, rfl, rfl⟩
    | some d =>
      simp only [hkey, hdata] at hrun
      simp only [TcpClient.sendData, TcpClient.writeWithLengthPrefix]
      cases connected with
      | false => exact ⟨_, _, hrun, rfl, rfl⟩
      | true =>
        cases hpacket : TcpClient.packet (b ++ d) with
        | error e =>
          rw [hpacket] at hrun
          exact ⟨_, _, hrun, rfl, rfl⟩
        | ok bytes =>
          rw [hpacket] at hrun
          cases net with
          | ok =>
            refine ⟨[.answer, .sendall .ok], _, hrun.append (.cons trivial rfl .nil), ?_⟩
            exact ⟨rfl, rfl⟩
          | fails n =>
            refine ⟨[.answer, .sendall (.fails n)], _, hrun.append (.cons trivial rfl .nil), ?_⟩
            exact ⟨rfl, rfl⟩

/-- The worker's steps for one entry of the queue do what `processTurn` does in one. -/
theorem exists_processTurn {g : Handler} {s : ResponserThreads} {payload key : PyStr} {rest : List (PyStr × PyStr)}
    (hw : s.worker = .getting) (hq : s.responser.dataQueue = (payload, key) :: rest) (net : TcpClient.SendAll) :
    ∃ as t, (system (some fun _ => g)).Runs (fun _ _ => True) s as t ∧
      t.responser = (s.responser.processTurn (some g) net).1 ∧
      t.worker = if (s.responser.processTurn (some g) net).2 then .loop else .dead payload key := by
  obtain ⟨⟨c, queue⟩, w, messages, asked⟩ := s
  obtain rfl : w = .getting := hw
  obtain rfl : queue = (payload, key) :: rest := hq
  cases hr : g payload with
  | none =>
    refine ⟨[.get, .handle], _, .cons trivial rfl (.cons trivial rfl .nil), ?_⟩
    simp [OpenSocketResponser.processTurn, hr]
  | notStr =>
    refine ⟨[.get, .handle], _, .cons trivial rfl (.cons trivial rfl .nil), ?_⟩
    simp [OpenSocketResponser.processTurn, hr]
  | raises =>
    refine ⟨[.get, .handle], _, .cons trivial rfl (.cons trivial rfl .nil), ?_⟩
    simp [OpenSocketResponser.processTurn, hr]
  | str response =>
    let s : ResponserThreads := ⟨⟨c, rest⟩, .answering payload key response, messages, asked ++ [payload]⟩
    have hhandle : step (some fun _ => g) ⟨⟨c, rest⟩, .handling payload key, messages, asked⟩ .handle = some s := by
      simp [step, hr, s]
    obtain ⟨as, t, hrun, ho, hworker⟩ := exists_sendBack (some fun _ => g) (s := s) rfl net
    refine ⟨.get :: .handle :: as, t, .cons trivial rfl (.cons trivial hhandle hrun), ?_⟩
    simp only [OpenSocketResponser.processTurn, hr, ho, hworker, s]
    cases hs : OpenSocketResponser.sendBack ⟨c, rest⟩ response key net with
    | mk o e => cases e <;> exact ⟨rfl, rfl⟩

end ResponserThreads
end KnotLink.Python
