import KnotLink.Java.TcpClient
/-!
# Java `readData` and what the listener throws (TcpClient.java:122-200)

Three handlers are nested: `processBuffer` catches a `RuntimeException` of the listener around the call itself,
`readData` catches an `IOException` of the socket and whatever else leaves `processBuffer`, and its `finally` clears
`running`. The listener is called when the buffer has been moved behind the message, so a call that throws leaves
nothing undone: `readData_same` compares two listeners that differ in what they throw, and `delivered_readData` says
what is delivered to one that does not disconnect.
-/
namespace KnotLink.Java
open Lib

/-- Where a `RuntimeException` comes from. -/
inductive RuntimeException where
  | listener
  /-- An operation on the buffer. -/
  | buffer
  deriving DecidableEq, Repr

/-- What `in.read` comes to. -/
inductive Arrival where
  | bytes (chunk : Bytes)
  | endOfStream
  | ioException
  deriving DecidableEq, Repr

/-- How `readData` ends. -/
inductive ReadExit where
  /-- The condition of its `while` has become false. -/
  | stopped
  | endOfStream
  | ioException
  | runtimeException
  deriving DecidableEq, Repr

namespace TcpClient

/-- What `processBuffer` finds before it calls the listener. -/
inductive Extracted where
  | short
  | malformed
  | threw
  | message (msgBytes : Bytes) (s : TcpClient)

/-- A turn of `processBuffer` up to the listener (TcpClient.java:154-182). -/
def extract (s : TcpClient) : Extracted :=
  if s.buffer.remaining < HEADER_LEN then .short
  else match s.buffer.duplicate.get MAGIC_LEN with
    | none => .threw
    | some (magicChk, dup) =>
      if magicChk ≠ MAGIC then .malformed
      else match dup.get 4 with
        | none => .threw
        | some (lenBytes, dup) =>
          let length := signed32 (ofBE lenBytes)
          if length ≤ 0 ∨ length > MAX_MSG_SIZE then .malformed
          else if (dup.remaining : Int) < length then .short
          else match (s.buffer.skip HEADER_LEN).bind (·.get length.toNat) with
            | none => .threw
            | some (msgBytes, buffer) => .message msgBytes { s with buffer := buffer.sliceRest }

theorem processTurn_extract (listener : Listener) (s : TcpClient) :
    processTurn listener s = match extract s with
      | .short => .leave (.returned s)
      | .malformed => .leave (.returned s.disconnect)
      | .threw => .leave (.threw s)
      | .message m s => if m = heartbeatResponse then .again s else .again (deliver listener s m) := by
  unfold processTurn extract
  by_cases h8 : s.buffer.remaining < HEADER_LEN
  · simp [h8]
  simp only [h8, if_false]
  cases s.buffer.duplicate.get MAGIC_LEN with
  | none => rfl
  | some p =>
    obtain ⟨magicChk, dup⟩ := p
    by_cases hm : magicChk = MAGIC
    · simp only [hm, ne_eq, not_true_eq_false, if_false]
      cases dup.get 4 with
      | none => rfl
      | some p =>
        obtain ⟨lenBytes, dup⟩ := p
        by_cases hl : signed32 (ofBE lenBytes) ≤ 0 ∨ signed32 (ofBE lenBytes) > MAX_MSG_SIZE
        · simp [hl]
        by_cases hb : (dup.remaining : Int) < signed32 (ofBE lenBytes)
        · simp [hl, hb]
        simp only [hl, hb, if_false]
        cases (s.buffer.skip HEADER_LEN).bind (·.get (signed32 (ofBE lenBytes)).toNat) with
        | none => rfl
        | some p => rfl
    · simp [hm]

end TcpClient

/-- The reader thread: the client, how `readData` has ended, and how often a listener's exception was printed. -/
structure Reader where
  client : TcpClient
  exit : Option ReadExit
  listenerErrors : Nat

namespace Reader

def start : Reader := ⟨.connected, none, 0⟩

/-- `dataReceivedListener.onDataReceived`: what it does, and whether it returns. -/
def onDataReceived (listener : Listener) (s : TcpClient) (msgBytes : Bytes) :
    Except RuntimeException Unit × TcpClient :=
  let s := { s with delivered := s.delivered ++ [msgBytes] }
  let reaction := listener s.delivered
  (if reaction.throws then .error .listener else .ok (), if reaction.disconnects then s.disconnect else s)

/-- The call in its `try` (TcpClient.java:189-194). -/
def deliver (listener : Listener) (r : Reader) (msgBytes : Bytes) : Reader :=
  match onDataReceived listener r.client msgBytes with
  | (.ok (), client) => { r with client }
  | (.error _, client) => { r with client, listenerErrors := r.listenerErrors + 1 }

def processTurn (listener : Listener) (r : Reader) : Turn Reader (Except RuntimeException Unit × Reader) :=
  match r.client.extract with
  | .short => .leave (.ok (), r)
  | .malformed => .leave (.ok (), { r with client := r.client.disconnect })
  | .threw => .leave (.error .buffer, r)
  | .message msgBytes client =>
    if msgBytes = heartbeatResponse then .again { r with client } else .again (deliver listener { r with client } msgBytes)

theorem client_deliver (listener : Listener) (r : Reader) (m : Bytes) :
    (deliver listener r m).client = TcpClient.deliver listener r.client m := by
  unfold deliver onDataReceived TcpClient.deliver
  dsimp only
  cases (listener (r.client.delivered ++ [m])).throws <;> simp

/-- Both ends of `processBuffer`, with the same client. -/
inductive Ends : Except RuntimeException Unit × Reader → TcpClient.Exit → Prop where
  | returned (r : Reader) : Ends (.ok (), r) (.returned r.client)
  | threw (e : RuntimeException) (r : Reader) : Ends (.error e, r) (.threw r.client)

/-- The catch around the listener makes the turn that of the client. -/
theorem processTurn_agree (listener : Listener) (r : Reader) :
    Body.Agree (fun r s => r.client = s) Ends (processTurn listener r) (TcpClient.processTurn listener r.client) := by
  rw [processTurn, TcpClient.processTurn_extract]
  cases r.client.extract with
  | short => exact .leave (.returned r)
  | malformed => exact .leave (.returned _)
  | threw => exact .leave (.threw _ r)
  | message m client =>
    by_cases hm : m = heartbeatResponse
    · simp only [hm, if_true]
      exact .again rfl
    · simp only [hm, if_false]
      exact .again (client_deliver listener _ m)

def processBody (listener : Listener) : Body Reader (Except RuntimeException Unit × Reader) where
  turn := processTurn listener
  measure r := r.client.buffer.remaining
  decreases {r r'} h := by
    have hagree := processTurn_agree listener r
    rw [h] at hagree
    generalize ht : TcpClient.processTurn listener r.client = t at hagree
    cases hagree with
    | again hr => exact hr ▸ (TcpClient.processBody listener).decreases ht

/-- `finally { stopHeartbeat(); }`. -/
def leave (r : Reader) (e : ReadExit) : Reader :=
  { r with client := { r.client with running := false }, exit := some e }

/-- Behind `processBuffer`: its exception is caught, or the `while` looks at its condition. -/
def resume : Except RuntimeException Unit × Reader → Reader
  | (.ok (), r) => if r.client.reading then r else r.leave .stopped
  | (.error _, r) => r.leave .runtimeException

/-- One turn of the loop of `readData` with its handlers; past its end nothing is read. -/
def readTurn (listener : Listener) (r : Reader) (a : Arrival) : Reader :=
  if r.exit.isSome then r
  else match a with
    | .endOfStream => r.leave .endOfStream
    | .ioException => r.leave .ioException
    | .bytes chunk =>
      match r.client.appendToBuffer chunk with
      | none => r.leave .runtimeException
      | some client => resume ((processBody listener).run { r with client })

def readData (listener : Listener) (arrivals : List Arrival) : Reader := arrivals.foldl (readTurn listener) start

/-! ## Two listeners -/

/-- The same but for what was printed. -/
def Same (r r' : Reader) : Prop := r.client = r'.client ∧ r.exit = r'.exit

section
variable {l l' : Listener} {r r' : Reader}

theorem exit_deliver (listener : Listener) (r : Reader) (m : Bytes) : (deliver listener r m).exit = r.exit := by
  unfold deliver
  split <;> rfl

/-- What the listener throws is printed, and nothing else. -/
theorem deliver_same (heffects : ∀ ms, (l ms).disconnects = (l' ms).disconnects) (h : Same r r') (m : Bytes) :
    Same (deliver l r m) (deliver l' r' m) := by
  constructor
  · rw [client_deliver, client_deliver, h.1]
    simp only [TcpClient.deliver, heffects]
  · rw [exit_deliver, exit_deliver, h.2]

theorem processBody_same (heffects : ∀ ms, (l ms).disconnects = (l' ms).disconnects) (h : Same r r') :
    ((processBody l).run r).1 = ((processBody l').run r').1 ∧
      Same ((processBody l).run r).2 ((processBody l').run r').2 := by
  refine Body.simulate (processBody l) (processBody l') (R := Same)
    (Q := fun p p' => p.1 = p'.1 ∧ Same p.2 p'.2) (fun {r r'} h => ?_) h
  change Body.Agree _ _ (processTurn l r) (processTurn l' r')
  unfold processTurn
  rw [← h.1]
  cases r.client.extract with
  | short => exact .leave ⟨rfl, h⟩
  | malformed => exact .leave ⟨rfl, rfl, h.2⟩
  | threw => exact .leave ⟨rfl, h⟩
  | message m client =>
    by_cases hm : m = heartbeatResponse
    · simp only [hm, if_true]
      exact .again ⟨rfl, h.2⟩
    · simp only [hm, if_false]
      exact .again (deliver_same heffects (show Same { r with client } { r' with client } from ⟨rfl, h.2⟩) m)

theorem leave_same (h : Same r r') (e : ReadExit) : Same (r.leave e) (r'.leave e) := by
  simp [Same, leave, h.1]

theorem resume_same {p p' : Except RuntimeException Unit × Reader} (hres : p.1 = p'.1) (h : Same p.2 p'.2) :
    Same (resume p) (resume p') := by
  obtain ⟨res, r⟩ := p
  obtain ⟨res', r'⟩ := p'
  obtain rfl : res = res' := hres
  cases res with
  | error e => exact leave_same h .runtimeException
  | ok =>
    simp only [resume, show r'.client = r.client from h.1.symm]
    split
    · exact h
    · exact leave_same h .stopped

theorem readTurn_same (heffects : ∀ ms, (l ms).disconnects = (l' ms).disconnects) (h : Same r r') (a : Arrival) :
    Same (readTurn l r a) (readTurn l' r' a) := by
  unfold readTurn
  rw [show r'.exit.isSome = r.exit.isSome by rw [h.2]]
  by_cases hexit : r.exit.isSome = true
  · simp only [hexit, if_true]
    exact h
  simp only [hexit, Bool.false_eq_true, if_false]
  cases a with
  | endOfStream => exact leave_same h .endOfStream
  | ioException => exact leave_same h .ioException
  | bytes chunk =>
    simp only [← h.1, TcpClient.appendToBuffer_eq]
    obtain ⟨hres, hsame⟩ := processBody_same heffects (show Same
      { r with client := { r.client with buffer := .wrap (r.client.buffer.contents ++ chunk) } }
      { r' with client := { r.client with buffer := .wrap (r.client.buffer.contents ++ chunk) } } from ⟨rfl, h.2⟩)
    exact resume_same hres hsame

/-- Listeners that differ only in what they throw. -/
theorem readData_same (heffects : ∀ ms, (l ms).disconnects = (l' ms).disconnects) (arrivals : List Arrival) :
    Same (readData l arrivals) (readData l' arrivals) := by
  have hall : ∀ {r r'}, Same r r' → Same (arrivals.foldl (readTurn l) r) (arrivals.foldl (readTurn l') r') := by
    induction arrivals with
    | nil => exact fun h => h
    | cons a as ih => exact fun h => ih (readTurn_same heffects h a)
  exact hall ⟨rfl, rfl⟩

end

/-! ## The reader and the client -/

/-- While `readData` runs the client is that of `TcpClient.readTurn`; both deliver the same. -/
def Runs (r : Reader) (s : TcpClient) : Prop :=
  r.client.delivered = s.delivered ∧ (r.exit = none → r.client = s ∧ s.reading = true) ∧
    (r.exit ≠ none → s.reading = false)

theorem exit_processBody (listener : Listener) (r : Reader) : ((processBody listener).run r).2.exit = r.exit := by
  refine (processBody listener).run_rule (I := fun t => t.exit = r.exit) (Q := fun p => p.2.exit = r.exit)
    (fun {t t'} ht h => ?_) (fun {t p} ht h => ?_) rfl
  · change processTurn listener t = .again t' at h
    unfold processTurn at h
    split at h
    · cases h
    · cases h
    · cases h
    · split at h <;> cases h
      · exact ht
      · rw [exit_deliver]
        exact ht
  · change processTurn listener t = .leave p at h
    unfold processTurn at h
    split at h
    · cases h
      exact ht
    · cases h
      exact ht
    · cases h
      exact ht
    · split at h <;> cases h

theorem leave_runs {r : Reader} {s : TcpClient} (hdelivered : r.client.delivered = s.delivered)
    (hstop : s.reading = false) (e : ReadExit) : Runs (r.leave e) s :=
  ⟨hdelivered, by simp [leave], fun _ => hstop⟩

/-- A chunk that has been appended. -/
theorem resume_runs (listener : Listener) {r : Reader} (hexit : r.exit = none) :
    Runs (resume ((processBody listener).run r)) (match TcpClient.processBuffer listener r.client with
      | .returned s => s
      | .threw s => { s with running := false }) := by
  have hends : Ends ((processBody listener).run r) (TcpClient.processBuffer listener r.client) :=
    Body.simulate (processBody listener) (TcpClient.processBody listener) (R := fun r s => r.client = s)
      (fun {r s} h => h ▸ processTurn_agree listener r) rfl
  have hnone := (exit_processBody listener r).trans hexit
  generalize (processBody listener).run r = p at hends hnone
  generalize TcpClient.processBuffer listener r.client = e at hends
  cases hends with
  | returned r' =>
    simp only [resume]
    split
    · rename_i hreading
      exact ⟨rfl, fun _ => ⟨rfl, hreading⟩, fun h => absurd hnone h⟩
    · rename_i hstop
      exact leave_runs rfl (Bool.not_eq_true _ ▸ hstop) .stopped
  | threw e r' =>
    have hstop : ({ r'.client with running := false } : TcpClient).reading = false := by simp [TcpClient.reading]
    exact leave_runs (s := { r'.client with running := false }) rfl hstop .runtimeException

theorem readTurn_runs {listener : Listener} {r : Reader} {s : TcpClient} (h : Runs r s) (chunk : Bytes) :
    Runs (readTurn listener r (.bytes chunk)) (TcpClient.readTurn listener s chunk) := by
  unfold readTurn TcpClient.readTurn
  by_cases hexit : r.exit = none
  · obtain ⟨rfl, hreading⟩ := h.2.1 hexit
    simp only [hexit, Option.isSome_none, Bool.false_eq_true, if_false, hreading, if_true,
      TcpClient.appendToBuffer_eq]
    exact resume_runs listener (r := { r with
      client := { r.client with buffer := .wrap (r.client.buffer.contents ++ chunk) }
      exit := none }) rfl
  · have hstop := h.2.2 hexit
    simp only [Option.isSome_iff_ne_none.2 hexit, if_true, hstop, Bool.false_eq_true, if_false]
    exact h

/-- The reader delivers what the client does. -/
theorem readData_bytes (listener : Listener) (chunks : List Bytes) :
    (readData listener (chunks.map .bytes)).client.delivered =
      (TcpClient.readChunks listener .connected chunks).delivered := by
  have hall : ∀ {r s}, Runs r s →
      Runs ((chunks.map .bytes).foldl (readTurn listener) r) (chunks.foldl (TcpClient.readTurn listener) s) := by
    induction chunks with
    | nil => exact fun h => h
    | cons c cs ih => exact fun h => ih (readTurn_runs h c)
  have hstart : Runs start .connected := ⟨rfl, fun _ => ⟨rfl, rfl⟩, fun h => absurd rfl h⟩
  exact (hall hstart).1

/-- A listener that does not disconnect gets every complete message, whatever it throws. -/
theorem delivered_readData {listener : Listener} (hstays : ∀ ms, (listener ms).disconnects = false)
    (chunks : List Bytes) :
    (readData listener (chunks.map .bytes)).client.delivered = messages chunks.flatten := by
  have hquiet : Same (readData listener (chunks.map .bytes)) (readData quiet (chunks.map .bytes)) :=
    readData_same hstays _
  have h0 : TcpClient.view.Follows [] .connected ⟨[], [], true⟩ := ⟨rfl, fun _ => ByteBuffer.contents_empty, rfl⟩
  rw [hquiet.1, readData_bytes]
  exact (TcpClient.readChunks_follows h0 chunks).delivered.trans
    (feedAll_messages (by simp [wireFront, HEADER_LEN]) chunks)

end Reader
end KnotLink.Java
