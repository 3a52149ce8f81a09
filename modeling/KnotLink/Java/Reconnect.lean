import KnotLink.Java.ReadData
import KnotLink.Lib.Run
/-!
# Java: connecting again (TcpClient.java:37-53, 97-150, 215-227)

`running`, `scheduler`, `socket`, `in` and `buffer` are fields of the client, not of a connection. One application
thread calls `connectToServer` and `disconnect`; every successful call of the first starts a reader thread that looks
at whatever these fields hold, and whose `finally` stops whatever heartbeat there is. A step is one statement, one
call on the buffer or one turn of the loop of `processBuffer`.

A new connection is left alone when its streams are stored only after every earlier reader thread has ended and no
bytes are left in the buffer (`new_connection_undisturbed`); the code sees to neither (`old_connection_disturbs`).
-/
namespace KnotLink.Java.Reconnecting
open Lib

/-- What follows a statement of a method. -/
inductive Next (α : Type) where
  | goes (pc : α)
  | over
  /-- A `RuntimeException` leaves it. -/
  | threw

/-- `stopHeartbeat`, before each of its statements. -/
inductive StopPc where
  | clear
  | test
  | shutdown
  | forget
  deriving DecidableEq, Repr

/-- `disconnect`, before each of its statements. -/
inductive DisconnectPc where
  | clear
  | stop (pc : StopPc)
  | close
  | reset
  deriving DecidableEq, Repr

/-- The application thread. -/
inductive OwnerPc where
  | idle
  /-- Before `new Socket`. -/
  | connecting
  /-- Before `getOutputStream` and `getInputStream`. -/
  | opening
  /-- Before `this.running = true`. -/
  | raising
  /-- `startHeartbeat`: before its test, before the new scheduler, before `scheduleAtFixedRate`. -/
  | testing
  | creating
  | scheduling
  /-- Before the reader thread. -/
  | starting
  /-- Before `return true`. -/
  | returning
  | disconnecting (pc : DisconnectPc)
  deriving DecidableEq, Repr

/-- A reader thread. -/
inductive ReaderPc where
  /-- Before the condition of the `while`. -/
  | checking
  /-- Before `in` is looked up. -/
  | calling
  /-- In `read` of this connection's stream. -/
  | receiving (stream : Nat)
  | appending (stream : Nat) (chunk : Bytes)
  /-- In `processBuffer`. -/
  | processing (stream : Nat)
  /-- In `disconnect`, called by the listener or by `processBuffer`. -/
  | disconnecting (pc : DisconnectPc) (stream : Nat) (byListener : Bool)
  /-- In the `finally`. -/
  | stopping (pc : StopPc)
  | ended
  deriving DecidableEq, Repr

/-- The connection that `connectToServer` has made last. -/
inductive Link where
  /-- It has failed by itself, or `disconnect` has been called since. -/
  | down
  /-- `running` is set, and `connectToServer` has not returned. -/
  | starting
  | up
  deriving DecidableEq, Repr

structure Client extends TcpClient where
  scheduler : Option Nat
  /-- How many schedulers have been made, and those that are not shut down. -/
  schedulers : Nat
  active : List Nat
  /-- The scheduler that `connectToServer` has given the heartbeat to. -/
  beat : Option Nat
  /-- The number of the connection that `in` reads. -/
  inp : Nat
  owner : OwnerPc
  readers : List ReaderPc
  link : Link
  /-- Nothing of connection `inp` has come to the buffer. -/
  fresh : Bool
  /-- What was in the buffer before the first chunk of each connection. -/
  starts : List Nat

/-- `new TcpClient()`. -/
def start : Client where
  running := false
  socketOpen := false
  buffer := .empty
  delivered := []
  scheduler := none
  schedulers := 0
  active := []
  beat := none
  inp := 0
  owner := .idle
  readers := []
  link := .down
  fresh := false
  starts := []

inductive Act where
  | connectToServer
  | disconnect
  /-- The application thread's next statement; `ok` is whether a call on the socket goes well. -/
  | owner (ok : Bool)
  /-- Reader `k`'s next statement; `arrival` is what its `read` comes to. -/
  | reader (k : Nat) (arrival : Arrival)
  deriving DecidableEq, Repr

/-- A statement of `stopHeartbeat` (TcpClient.java:114-120). -/
def stopHeartbeat (s : Client) : StopPc → Client × Next StopPc
  | .clear => ({ s with running := false }, .goes .test)
  | .test => (s, if s.scheduler.isSome then .goes .shutdown else .over)
  | .shutdown =>
    match s.scheduler with
    -- another thread has set it to null since the test
    | none => (s, .threw)
    | some n => ({ s with active := s.active.filter (· ≠ n) }, .goes .forget)
  | .forget => ({ s with scheduler := none }, .over)

/-- A statement of `disconnect` (TcpClient.java:215-227). -/
def disconnect (s : Client) : DisconnectPc → Client × Next DisconnectPc
  | .clear => ({ s with running := false }, .goes (.stop .clear))
  | .stop pc =>
    match stopHeartbeat s pc with
    | (s, .goes pc) => (s, .goes (.stop pc))
    | (s, .over) => (s, .goes .close)
    | (s, .threw) => (s, .threw)
  | .close => ({ s with socketOpen := false }, .goes .reset)
  | .reset => ({ s with buffer := .empty }, .over)

def ownerStep (s : Client) (ok : Bool) : Option Client :=
  match s.owner with
  | .idle => none
  | .connecting => some (if ok then { s with socketOpen := true, owner := .opening } else { s with owner := .idle })
  | .opening =>
    -- a closed socket has no streams
    if ok ∧ s.socketOpen then some { s with inp := s.inp + 1, fresh := true, owner := .raising }
    else some { s with owner := .idle }
  | .raising => some { s with running := true, link := .starting, owner := .testing }
  | .testing =>
    match s.scheduler with
    | none => some { s with owner := .creating }
    | some n => some { s with owner := if n ∈ s.active then .scheduling else .creating }
  | .creating => some { s with
      scheduler := some s.schedulers
      active := s.active ++ [s.schedulers]
      schedulers := s.schedulers + 1
      owner := .scheduling }
  | .scheduling =>
    match s.scheduler with
    | some n =>
      if n ∈ s.active then some { s with beat := some n, owner := .starting }
      -- `RejectedExecutionException`
      else some { s with link := .down, owner := .idle }
    | none => some { s with link := .down, owner := .idle }
  | .starting => some { s with readers := s.readers ++ [.checking], owner := .returning }
  | .returning => some { s with link := if s.link = .starting then .up else s.link, owner := .idle }
  | .disconnecting pc =>
    match disconnect s pc with
    | (s, .goes pc) => some { s with owner := .disconnecting pc }
    | (s, .over) | (s, .threw) => some { s with owner := .idle }

def goto (s : Client) (k : Nat) (pc : ReaderPc) : Client := { s with readers := s.readers.set k pc }

/-- A connection fails by itself. -/
def failed (s : Client) (stream : Nat) : Client := if stream = s.inp then { s with link := .down } else s

/-- Bytes of a connection come to the buffer. -/
def arrived (s : Client) (stream : Nat) : Client :=
  if stream = s.inp ∧ s.fresh then { s with fresh := false, starts := s.starts ++ [s.buffer.remaining] } else s

/-- A turn of `processBuffer` (TcpClient.java:154-199). -/
def processTurn (listener : Listener) (s : Client) (k stream : Nat) : Client :=
  match s.extract with
  | .short => goto s k .checking
  | .malformed => goto (failed s stream) k (.disconnecting .clear stream false)
  | .threw => goto (failed s stream) k (.stopping .clear)
  | .message m t =>
    if m = heartbeatResponse then { s with toTcpClient := t }
    else
      let t := { t with delivered := t.delivered ++ [m] }
      let s := { s with toTcpClient := t }
      if (listener t.delivered).disconnects then goto { s with link := .down } k (.disconnecting .clear stream true)
      else s

def readerStep (listener : Listener) (s : Client) (k : Nat) (arrival : Arrival) : ReaderPc → Option Client
  | .checking => some (goto s k (if s.reading then .calling else .stopping .clear))
  | .calling => some (goto s k (.receiving s.inp))
  | .receiving stream =>
    match arrival with
    | .bytes chunk => some (goto s k (.appending stream chunk))
    | .endOfStream | .ioException => some (goto (failed s stream) k (.stopping .clear))
  | .appending stream chunk =>
    match s.appendToBuffer chunk with
    | none => some (goto (failed s stream) k (.stopping .clear))
    | some t => some (goto { arrived s stream with toTcpClient := t } k (.processing stream))
  | .processing stream => some (processTurn listener s k stream)
  | .disconnecting pc stream byListener =>
    match disconnect s pc with
    | (s, .goes pc) => some (goto s k (.disconnecting pc stream byListener))
    | (s, .over) => some (goto s k (if byListener then .processing stream else .checking))
    | (s, .threw) => some (goto s k (if byListener then .processing stream else .stopping .clear))
  | .stopping pc =>
    match stopHeartbeat s pc with
    | (s, .goes pc) => some (goto s k (.stopping pc))
    | (s, .over) | (s, .threw) => some (goto s k .ended)
  | .ended => none

def step (listener : Listener) (s : Client) : Act → Option Client
  | .connectToServer =>
    match s.owner with
    | .idle => some { s with owner := .connecting }
    | _ => none
  | .disconnect =>
    match s.owner with
    | .idle => some { s with link := .down, owner := .disconnecting .clear }
    | _ => none
  | .owner ok => ownerStep s ok
  | .reader k arrival => s.readers[k]?.bind (readerStep listener s k arrival)

def system (listener : Listener) : System Client Act := ⟨step listener⟩

/-- `connectToServer` stores its streams when every reader thread has ended and the buffer is empty. -/
def Settled (s : Client) : Act → Prop
  | .owner true => s.owner = .opening → (∀ pc ∈ s.readers, pc = .ended) ∧ s.buffer.remaining = 0
  | _ => True

instance (s : Client) (a : Act) : Decidable (Settled s a) := by
  unfold Settled
  split <;> infer_instance

/-! ## The newest connection has the fields for itself -/

/-- The connection whose stream a reader has in hand. -/
def ReaderPc.stream : ReaderPc → Option Nat
  | receiving stream | appending stream _ | processing stream | disconnecting _ stream _ => some stream
  | checking | calling | stopping _ | ended => none

/-- In its loop, and not disconnecting. -/
def ReaderPc.working : ReaderPc → Bool
  | checking | calling | receiving _ | appending .. | processing _ => true
  | disconnecting .. | stopping _ | ended => false

/-- Between the storing of the streams and the start of the reader. -/
def OwnerPc.alone : OwnerPc → Bool
  | raising | testing | creating | scheduling | starting => true
  | idle | connecting | opening | returning | disconnecting _ => false

/-- The heartbeat's scheduler is the client's and is not shut down. -/
def Beating (s : Client) : Prop := ∃ n, s.beat = some n ∧ s.scheduler = some n ∧ n ∈ s.active

/-- What there is of a connection that has not failed. -/
def Standing (s : Client) : OwnerPc → Prop
  | .raising | .disconnecting _ => False
  | .testing | .creating => True
  | .scheduling => ∃ n, s.scheduler = some n ∧ n ∈ s.active
  | .starting => Beating s
  | .idle | .connecting | .opening | .returning =>
    Beating s ∧ ∃ pc, s.readers.getLast? = some pc ∧ pc.working = true

structure Inv (s : Client) : Prop where
  last : ∀ (k : Nat) (pc : ReaderPc), s.readers[k]? = some pc → pc ≠ .ended → k + 1 = s.readers.length
  stream : ∀ pc ∈ s.readers, ∀ c, pc.stream = some c → c = s.inp
  ended : s.owner.alone = true → ∀ pc ∈ s.readers, pc = .ended
  raising : s.owner = .raising → s.socketOpen = true
  clean : s.fresh = true → s.buffer.remaining = 0
  starts : ∀ b ∈ s.starts, b = 0
  up : s.link ≠ .down → s.running = true ∧ s.socketOpen = true ∧ Standing s s.owner
  returned : s.link = .up → s.owner.alone = false

variable {listener : Listener} {s u t : Client} {a : Act} {k : Nat} {pc pc' : ReaderPc}

theorem start_inv : Inv start where
  last := by simp [start]
  stream := by simp [start]
  ended := by simp [start]
  raising := by simp [start]
  clean := by simp [start]
  starts := by simp [start]
  up := by simp [start]
  returned := by simp [start]

/-- `stopHeartbeat` moves three fields. -/
theorem stopHeartbeat_frame (s : Client) (pc : StopPc) : ∃ running scheduler active,
    (stopHeartbeat s pc).1 = { s with running, scheduler, active } := by
  cases pc with
  | clear | test | forget => exact ⟨_, _, _, rfl⟩
  | shutdown =>
    simp only [stopHeartbeat]
    split <;> exact ⟨_, _, _, rfl⟩

/-- `disconnect` moves five fields, and the buffer to the empty one. -/
theorem disconnect_frame (s : Client) (pc : DisconnectPc) : ∃ running socketOpen buffer scheduler active,
    (buffer = s.buffer ∨ buffer = .empty) ∧
      (disconnect s pc).1 = { s with running, socketOpen, buffer, scheduler, active } := by
  cases pc with
  | clear | close => exact ⟨_, _, _, _, _, .inl rfl, rfl⟩
  | reset => exact ⟨_, _, _, _, _, .inr rfl, rfl⟩
  | stop pc =>
    obtain ⟨running, scheduler, active, h⟩ := stopHeartbeat_frame s pc
    refine ⟨running, s.socketOpen, s.buffer, scheduler, active, .inl rfl, ?_⟩
    simp only [disconnect]
    generalize stopHeartbeat s pc = next at h
    rcases next with ⟨t, _ | _ | _⟩ <;> exact h

/-! ## The reader threads -/

theorem getLast?_of_last (h : Inv s) (hk : s.readers[k]? = some pc) (hpc : pc ≠ .ended) :
    s.readers.getLast? = some pc := by
  have := h.last k pc hk hpc
  rw [List.getLast?_eq_getElem?, ← this]
  exact hk

/-- A reader that is not in its loop any more is the reader of a connection that is down. -/
theorem Inv.down (h : Inv s) (hk : s.readers[k]? = some pc) (hpc : pc ≠ .ended) (hw : pc.working = false) :
    s.link = .down := by
  by_contra hlink
  obtain ⟨-, -, hst⟩ := h.up hlink
  have halone (ho : s.owner.alone = true) : False := hpc (h.ended ho pc (List.mem_of_getElem? hk))
  cases ho : s.owner with
  | raising | testing | creating | scheduling | starting => exact halone (by rw [ho]; rfl)
  | disconnecting =>
    rw [ho] at hst
    exact hst
  | idle | connecting | opening | returning =>
    rw [ho] at hst
    obtain ⟨-, x, hx, hxw⟩ := hst
    rw [getLast?_of_last h hk hpc] at hx
    cases hx
    simp [hw] at hxw

/-- A reader moves. -/
theorem Inv.reader (h : Inv s) (hk : s.readers[k]? = some pc) (hpc : pc ≠ .ended)
    (hu : u.owner = s.owner ∧ u.inp = s.inp ∧ u.readers = s.readers.set k pc')
    (hstream : ∀ c, pc'.stream = some c → c = s.inp) (hclean : u.fresh = true → u.buffer.remaining = 0)
    (hstarts : ∀ b ∈ u.starts, b = 0)
    (hup : u.link ≠ .down → pc'.working = true ∧ u.link = s.link ∧ u.running = s.running ∧
      u.socketOpen = s.socketOpen ∧ u.scheduler = s.scheduler ∧ u.active = s.active ∧ u.beat = s.beat) : Inv u := by
  obtain ⟨howner, hinp, hreaders⟩ := hu
  have halone : s.owner.alone = false := by
    by_contra ho
    exact hpc (h.ended (Bool.of_not_eq_false ho) pc (List.mem_of_getElem? hk))
  have hlast := h.last k pc hk hpc
  refine ⟨fun j x hj hx => ?_, fun x hx c hc => ?_, ?_, ?_, hclean, hstarts, fun hlink => ?_, ?_⟩
  · rw [hreaders] at hj ⊢
    rw [List.length_set]
    rcases (getElem?_set_iff hk).1 hj with ⟨rfl, -⟩ | ⟨-, hj⟩
    · exact hlast
    · exact h.last j x hj hx
  · rw [hinp]
    rw [hreaders] at hx
    rcases List.mem_or_eq_of_mem_set hx with hx | rfl
    · exact h.stream x hx c hc
    · exact hstream c hc
  · rw [howner, halone]
    simp
  · intro ho
    rw [howner] at ho
    rw [ho] at halone
    cases halone
  · obtain ⟨hw, hl, hr, hso, hsch, hact, hbeat⟩ := hup hlink
    obtain ⟨hrun, hopen, hst⟩ := h.up (hl ▸ hlink)
    refine ⟨hr.trans hrun, hso.trans hopen, ?_⟩
    rw [howner]
    cases ho : s.owner with
    | raising | testing | creating | scheduling | starting =>
      rw [ho] at halone
      cases halone
    | disconnecting =>
      rw [ho] at hst
      exact hst
    | idle | connecting | opening | returning =>
      rw [ho] at hst
      obtain ⟨⟨n, hn⟩, -⟩ := hst
      refine ⟨⟨n, by rw [hbeat, hsch, hact]; exact hn⟩, pc', ?_, hw⟩
      rw [hreaders, List.getLast?_eq_getElem?, List.length_set, ← hlast]
      exact (getElem?_set_iff hk).2 (.inl ⟨rfl, rfl⟩)
  · rw [howner, halone]
    simp

/-- A reader moves and the client stays. -/
theorem Inv.goto (h : Inv s) (hk : s.readers[k]? = some pc) (hpc : pc ≠ .ended)
    (hstream : ∀ c, pc'.stream = some c → c = s.inp) (hup : s.link ≠ .down → pc'.working = true) :
    Inv (Reconnecting.goto s k pc') :=
  h.reader hk hpc ⟨rfl, rfl, rfl⟩ hstream h.clean h.starts fun hlink => ⟨hup hlink, rfl, rfl, rfl, rfl, rfl, rfl⟩

/-- A reader finds that its connection has failed. -/
theorem Inv.failed (h : Inv s) (hk : s.readers[k]? = some pc) (hpc : pc ≠ .ended) {stream : Nat}
    (hs : pc.stream = some stream) (hstream : ∀ c, pc'.stream = some c → c = stream) :
    Inv (Reconnecting.goto (Reconnecting.failed s stream) k pc') := by
  have heq := h.stream pc (List.mem_of_getElem? hk) stream hs
  unfold Reconnecting.failed
  rw [if_pos heq]
  exact h.reader hk hpc ⟨rfl, rfl, rfl⟩ (fun c hc => (hstream c hc).trans heq) h.clean h.starts fun hlink => by
    simp [Reconnecting.goto] at hlink

/-- A reader of a connection that is down moves, and the fields with it. -/
theorem Inv.moved (h : Inv s) (hk : s.readers[k]? = some pc) (hpc : pc ≠ .ended) (hdown : s.link = .down)
    (hstream : ∀ c, pc'.stream = some c → c = s.inp) {running socketOpen : Bool} {buffer : ByteBuffer}
    {scheduler : Option Nat} {active : List Nat} (hb : buffer = s.buffer ∨ buffer = .empty) :
    Inv (Reconnecting.goto { s with running, socketOpen, buffer, scheduler, active } k pc') := by
  refine h.reader hk hpc ⟨rfl, rfl, rfl⟩ hstream (fun hf => ?_) h.starts fun hlink => absurd hdown hlink
  rcases hb with rfl | rfl
  · exact h.clean hf
  · rfl

theorem extract_short {s : TcpClient} (h : s.buffer.remaining = 0) : s.extract = .short := by
  unfold TcpClient.extract
  simp [h, HEADER_LEN]

theorem extract_message {s t : TcpClient} {m : Bytes} (h : s.extract = .message m t) :
    ∃ buffer, t = { s with buffer } := by
  simp only [TcpClient.extract] at h
  split at h
  · cases h
  split at h
  · cases h
  split at h
  · cases h
  split at h
  · cases h
  split at h
  · cases h
  split at h
  · cases h
  split at h <;> cases h
  exact ⟨_, rfl⟩

theorem processTurn_inv {stream : Nat} (h : Inv s) (hk : s.readers[k]? = some (.processing stream)) :
    Inv (processTurn listener s k stream) := by
  have hpc : ReaderPc.processing stream ≠ .ended := by simp
  have heq := h.stream _ (List.mem_of_getElem? hk) stream rfl
  unfold processTurn
  split
  · exact h.goto hk hpc (by simp [ReaderPc.stream]) fun _ => rfl
  · exact h.failed hk hpc rfl (by simp [ReaderPc.stream])
  · exact h.failed hk hpc rfl (by simp [ReaderPc.stream])
  · rename_i m t hex
    -- a buffer with a message in it is not empty
    have hfresh : s.fresh = false := by
      by_contra hf
      rw [extract_short (h.clean (Bool.of_not_eq_false hf))] at hex
      cases hex
    obtain ⟨buffer, rfl⟩ := extract_message hex
    have hstays {delivered : List Bytes} :
        Inv { s with toTcpClient := { s.toTcpClient with buffer, delivered } } := by
      have hset : s.readers = s.readers.set k (.processing stream) := (set_of_getElem? hk).symm
      exact h.reader hk hpc ⟨rfl, rfl, hset⟩ (by simp [ReaderPc.stream, heq]) (by simp [hfresh]) h.starts
        fun _ => ⟨rfl, rfl, rfl, rfl, rfl, rfl, rfl⟩
    split
    · exact hstays
    · dsimp only
      split
      · exact h.reader hk hpc ⟨rfl, rfl, rfl⟩ (by simp [ReaderPc.stream, heq])
          (by simp [Reconnecting.goto, hfresh]) h.starts (by simp [Reconnecting.goto])
      · exact hstays

theorem readerStep_inv {arrival : Arrival} (h : Inv s) (hk : s.readers[k]? = some pc)
    (hst : readerStep listener s k arrival pc = some u) : Inv u := by
  cases pc with
  | checking =>
    cases hst
    refine h.goto hk (by simp) (by split <;> simp [ReaderPc.stream]) fun hlink => ?_
    obtain ⟨hrun, hopen, -⟩ := h.up hlink
    simp [TcpClient.reading, hrun, hopen, ReaderPc.working]
  | calling =>
    cases hst
    exact h.goto hk (by simp) (by simp [ReaderPc.stream]) fun _ => rfl
  | receiving stream =>
    have heq := h.stream _ (List.mem_of_getElem? hk) stream rfl
    cases arrival with
    | bytes chunk =>
      cases hst
      exact h.goto hk (by simp) (by simp [ReaderPc.stream, heq]) fun _ => rfl
    | endOfStream | ioException =>
      cases hst
      exact h.failed hk (by simp) rfl (by simp [ReaderPc.stream])
  | appending stream chunk =>
    have heq := h.stream _ (List.mem_of_getElem? hk) stream rfl
    simp only [readerStep, TcpClient.appendToBuffer_eq] at hst
    cases hst
    unfold arrived
    split
    · rename_i hf
      refine h.reader hk (by simp) ⟨rfl, rfl, rfl⟩ (by simp [ReaderPc.stream, heq])
        (by simp [Reconnecting.goto]) (fun b hb => ?_) fun _ => ⟨rfl, rfl, rfl, rfl, rfl, rfl, rfl⟩
      rcases List.mem_append.1 hb with hb | hb
      · exact h.starts b hb
      · rw [List.mem_singleton.1 hb]
        exact h.clean hf.2
    · rename_i hf
      have hfresh : s.fresh = false := by simpa [heq] using hf
      exact h.reader hk (by simp) ⟨rfl, rfl, rfl⟩ (by simp [ReaderPc.stream, heq])
        (by simp [Reconnecting.goto, hfresh]) h.starts fun _ => ⟨rfl, rfl, rfl, rfl, rfl, rfl, rfl⟩
  | processing stream =>
    cases hst
    exact processTurn_inv h hk
  | disconnecting pc stream byListener =>
    have heq := h.stream _ (List.mem_of_getElem? hk) stream rfl
    have hdown := h.down hk (by simp) rfl
    obtain ⟨running, socketOpen, buffer, scheduler, active, hb, hframe⟩ := disconnect_frame s pc
    simp only [readerStep] at hst
    generalize disconnect s pc = next at hst hframe
    obtain ⟨t, next⟩ := next
    obtain rfl := hframe
    rcases next with pc | _ | _ <;> cases hst
    · exact h.moved hk (by simp) hdown (by simp [ReaderPc.stream, heq]) hb
    · refine h.moved hk (by simp) hdown ?_ hb
      split <;> simp [ReaderPc.stream, heq]
    · refine h.moved hk (by simp) hdown ?_ hb
      split <;> simp [ReaderPc.stream, heq]
  | stopping pc =>
    have hdown := h.down hk (by simp) rfl
    obtain ⟨running, scheduler, active, hframe⟩ := stopHeartbeat_frame s pc
    simp only [readerStep] at hst
    generalize stopHeartbeat s pc = next at hst hframe
    obtain ⟨t, next⟩ := next
    obtain rfl := hframe
    rcases next with pc | _ | _ <;> cases hst
    · exact h.moved hk (by simp) hdown (by simp [ReaderPc.stream]) (.inl rfl)
    · exact h.moved hk (by simp) hdown (by simp [ReaderPc.stream]) (.inl rfl)
    · exact h.moved hk (by simp) hdown (by simp [ReaderPc.stream]) (.inl rfl)
  | ended => cases hst

/-! ## The application thread -/

/-- The application thread moves outside a successful `connectToServer`. -/
theorem Inv.move (h : Inv s) {o : OwnerPc} {socketOpen : Bool} (ho : o.alone = false)
    (hopen : s.socketOpen = true → socketOpen = true) (hst : Standing s s.owner → Standing s o) :
    Inv { s with owner := o, socketOpen } where
  last := h.last
  stream := h.stream
  ended := by simp [ho]
  raising := by
    rintro rfl
    cases ho
  clean := h.clean
  starts := h.starts
  up hlink := by
    obtain ⟨hrun, hso, hstanding⟩ := h.up hlink
    exact ⟨hrun, hopen hso, hst hstanding⟩
  returned _ := ho

/-- It moves and no connection is up. -/
theorem Inv.moveDown (h : Inv s) (hu : u.readers = s.readers ∧ u.inp = s.inp ∧ u.fresh = s.fresh ∧ u.starts = s.starts)
    (hb : u.buffer = s.buffer ∨ u.buffer = .empty) (hlink : u.link = .down) (ho : u.owner.alone = false) : Inv u := by
  obtain ⟨hreaders, hinp, hfresh, hstarts⟩ := hu
  refine ⟨hreaders ▸ h.last, fun pc hpc c hc => ?_, by simp [ho], fun hr => ?_, fun hf => ?_, hstarts ▸ h.starts,
    fun hl => absurd hlink hl, fun _ => ho⟩
  · rw [hinp]
    exact h.stream pc (hreaders ▸ hpc) c hc
  · rw [hr] at ho
    cases ho
  · rcases hb with hb | hb <;> rw [hb]
    · exact h.clean (hfresh ▸ hf)
    · rfl

/-- It moves on while no reader runs. -/
theorem Inv.moveAlone (h : Inv s) (hs : s.owner.alone = true)
    (hu : u.readers = s.readers ∧ u.inp = s.inp ∧ u.fresh = s.fresh ∧ u.starts = s.starts ∧ u.buffer = s.buffer)
    (ho : u.owner ≠ .raising) (hlink : u.link ≠ .up)
    (hup : u.link ≠ .down → u.running = true ∧ u.socketOpen = true ∧ Standing u u.owner) : Inv u := by
  obtain ⟨hreaders, hinp, hfresh, hstarts, hbuffer⟩ := hu
  refine ⟨hreaders ▸ h.last, fun pc hpc c hc => ?_, fun _ pc hpc => h.ended hs pc (hreaders ▸ hpc),
    fun hr => absurd hr ho, fun hf => ?_, hstarts ▸ h.starts, hup, fun hl => absurd hl hlink⟩
  · rw [hinp]
    exact h.stream pc (hreaders ▸ hpc) c hc
  · rw [hbuffer]
    exact h.clean (hfresh ▸ hf)

theorem Inv.not_up (h : Inv s) (hs : s.owner.alone = true) : s.link ≠ .up := by
  intro hl
  rw [h.returned hl] at hs
  cases hs

/-- Where all readers have ended, no connection is up. -/
theorem Inv.down_of_ended (h : Inv s) (ho : s.owner = .opening) (hall : ∀ pc ∈ s.readers, pc = .ended) :
    s.link = .down := by
  by_contra hlink
  obtain ⟨-, -, hst⟩ := h.up hlink
  rw [ho] at hst
  obtain ⟨-, pc, hlast, hw⟩ := hst
  rw [hall pc (List.mem_of_getLast? hlast)] at hw
  cases hw

theorem ownerStep_inv {ok : Bool} (h : Inv s) (ha : Settled s (.owner ok)) (hst : ownerStep s ok = some u) : Inv u := by
  cases ho : s.owner with
  | idle =>
    simp only [ownerStep, ho] at hst
    cases hst
  | connecting =>
    simp only [ownerStep, ho] at hst
    split at hst <;> cases hst
    · exact h.move rfl (fun _ => rfl) (by rw [ho]; exact id)
    · exact h.move rfl id (by rw [ho]; exact id)
  | opening =>
    simp only [ownerStep, ho] at hst
    split at hst <;> cases hst
    · rename_i hok
      obtain ⟨rfl, hopen⟩ := hok
      obtain ⟨hall, hempty⟩ := ha ho
      have hdown := h.down_of_ended ho hall
      refine ⟨h.last, fun pc hpc c hc => ?_, fun _ => hall, fun _ => hopen, fun _ => hempty, h.starts,
        fun hl => absurd hdown hl, by simp [hdown]⟩
      rw [hall pc hpc] at hc
      cases hc
    · exact h.move rfl id (by rw [ho]; exact id)
  | raising =>
    simp only [ownerStep, ho] at hst
    cases hst
    exact h.moveAlone (by rw [ho]; rfl) ⟨rfl, rfl, rfl, rfl, rfl⟩ (by simp) (by simp)
      fun _ => ⟨rfl, h.raising ho, trivial⟩
  | testing =>
    have hs : s.owner.alone = true := by rw [ho]; rfl
    simp only [ownerStep, ho] at hst
    split at hst <;> cases hst
    · refine h.moveAlone hs ⟨rfl, rfl, rfl, rfl, rfl⟩ (by simp) (h.not_up hs) fun hl => ?_
      obtain ⟨hrun, hopen, -⟩ := h.up hl
      exact ⟨hrun, hopen, trivial⟩
    · rename_i n hn
      refine h.moveAlone hs ⟨rfl, rfl, rfl, rfl, rfl⟩ (by simp only; split <;> simp) (h.not_up hs) fun hl => ?_
      obtain ⟨hrun, hopen, -⟩ := h.up hl
      refine ⟨hrun, hopen, ?_⟩
      by_cases hactive : n ∈ s.active
      · simp only [if_pos hactive]
        exact ⟨n, hn, hactive⟩
      · simp only [if_neg hactive]
        trivial
  | creating =>
    have hs : s.owner.alone = true := by rw [ho]; rfl
    simp only [ownerStep, ho] at hst
    cases hst
    refine h.moveAlone hs ⟨rfl, rfl, rfl, rfl, rfl⟩ (by simp) (h.not_up hs) fun hl => ?_
    obtain ⟨hrun, hopen, -⟩ := h.up hl
    exact ⟨hrun, hopen, s.schedulers, rfl, by simp⟩
  | scheduling =>
    have hs : s.owner.alone = true := by rw [ho]; rfl
    simp only [ownerStep, ho] at hst
    split at hst
    · rename_i n hn
      split at hst <;> cases hst
      · refine h.moveAlone hs ⟨rfl, rfl, rfl, rfl, rfl⟩ (by simp) (h.not_up hs) fun hl => ?_
        obtain ⟨hrun, hopen, -⟩ := h.up hl
        exact ⟨hrun, hopen, n, rfl, hn, ‹_›⟩
      · exact h.moveDown ⟨rfl, rfl, rfl, rfl⟩ (.inl rfl) rfl rfl
    · cases hst
      exact h.moveDown ⟨rfl, rfl, rfl, rfl⟩ (.inl rfl) rfl rfl
  | starting =>
    have hs : s.owner.alone = true := by rw [ho]; rfl
    have hended := h.ended hs
    simp only [ownerStep, ho] at hst
    cases hst
    refine ⟨fun k pc hk hpc => ?_, fun pc hpc c hc => ?_, by simp [OwnerPc.alone], by simp, h.clean, h.starts,
      fun hl => ?_, fun hl => absurd hl (h.not_up hs)⟩
    · rcases getElem?_concat_iff.1 hk with ⟨rfl, -⟩ | hk
      · simp
      · exact absurd (hended pc (List.mem_of_getElem? hk)) hpc
    · rcases List.mem_append.1 hpc with hpc | hpc
      · exact h.stream pc hpc c hc
      · rw [List.mem_singleton.1 hpc] at hc
        cases hc
    · obtain ⟨hrun, hopen, hstanding⟩ := h.up hl
      rw [ho] at hstanding
      exact ⟨hrun, hopen, hstanding, .checking, by simp, rfl⟩
  | returning =>
    simp only [ownerStep, ho] at hst
    cases hst
    refine ⟨h.last, h.stream, by simp [OwnerPc.alone], by simp, h.clean, h.starts, fun hl => ?_, fun _ => rfl⟩
    have hlink : s.link ≠ .down := by
      intro hdown
      simp [hdown] at hl
    obtain ⟨hrun, hopen, hstanding⟩ := h.up hlink
    rw [ho] at hstanding
    exact ⟨hrun, hopen, hstanding⟩
  | disconnecting pc =>
    have hdown : s.link = .down := by
      by_contra hl
      have hstanding := (h.up hl).2.2
      rw [ho] at hstanding
      exact hstanding
    obtain ⟨running, socketOpen, buffer, scheduler, active, hb, hframe⟩ := disconnect_frame s pc
    simp only [ownerStep, ho] at hst
    generalize disconnect s pc = next at hst hframe
    obtain ⟨t, next⟩ := next
    obtain rfl := hframe
    rcases next with pc | _ | _ <;> cases hst
    · exact h.moveDown ⟨rfl, rfl, rfl, rfl⟩ hb hdown rfl
    · exact h.moveDown ⟨rfl, rfl, rfl, rfl⟩ hb hdown rfl
    · exact h.moveDown ⟨rfl, rfl, rfl, rfl⟩ hb hdown rfl

/-! ## Runs -/

theorem step_inv (h : Inv s) (ha : Settled s a) (hst : step listener s a = some u) : Inv u := by
  cases a with
  | connectToServer =>
    simp only [step] at hst
    split at hst <;> cases hst
    rename_i ho
    exact h.move rfl id (by rw [ho]; exact id)
  | disconnect =>
    simp only [step] at hst
    split at hst <;> cases hst
    exact h.moveDown ⟨rfl, rfl, rfl, rfl⟩ (.inl rfl) rfl rfl
  | owner ok => exact ownerStep_inv h ha hst
  | reader k arrival =>
    obtain ⟨pc, hk, hst⟩ := Option.bind_eq_some_iff.1 hst
    exact readerStep_inv h hk hst

/-- **A new connection is undisturbed.** Where `connectToServer` stores its streams only after every reader thread has
ended and the buffer is empty, a connection that it has made stands with `running` set and its heartbeat scheduled
until it fails by itself or `disconnect` is called, and its first chunk comes to an empty buffer. -/
theorem new_connection_undisturbed {as : List Act} (h : (system listener).Runs Settled start as s) :
    (s.link = .up → s.running = true ∧ ∃ n, s.beat = some n ∧ s.scheduler = some n ∧ n ∈ s.active) ∧
      ∀ b ∈ s.starts, b = 0 := by
  have hinv := h.invariant (fun h ha hst => step_inv h ha hst) start_inv
  refine ⟨fun hup => ?_, hinv.starts⟩
  obtain ⟨hrun, -, hst⟩ := hinv.up (by simp [hup])
  have halone := hinv.returned hup
  refine ⟨hrun, ?_⟩
  cases ho : s.owner with
  | raising | testing | creating | scheduling | starting =>
    rw [ho] at halone
    cases halone
  | disconnecting pc =>
    rw [ho] at hst
    exact hst.elim
  | idle | connecting | opening | returning =>
    rw [ho] at hst
    exact hst.1

/-- `connectToServer` returns true. -/
def connectRun : List Act := .connectToServer :: List.replicate 8 (.owner true)

/-- Reader `k` reads a chunk and looks at it. -/
def chunkRun (k : Nat) (chunk : Bytes) : List Act := List.replicate 5 (.reader k (.bytes chunk))

/-- The stream of reader `k` ends, and the reader with it. -/
def endRun (k : Nat) : List Act := List.replicate 7 (.reader k .endOfStream)

/-- A connection ends in the middle of a frame; the application waits for its reader, disconnects and connects. -/
def settledRun : List Act :=
  connectRun ++ chunkRun 0 [0x4B, 0x4B] ++ endRun 0 ++ .disconnect :: List.replicate 5 (.owner true) ++ connectRun ++
    chunkRun 1 [0x4B, 0x4B]

theorem new_connection_undisturbed_settled : ∃ s, (system quiet).Runs Settled start settledRun s ∧ s.link = .up ∧
    (s.running = true ∧ ∃ n, s.beat = some n ∧ s.scheduler = some n ∧ n ∈ s.active) ∧
    s.starts = [0, 0] ∧ ∀ b ∈ s.starts, b = 0 := by
  obtain ⟨s, hrun, hup, hstarts⟩ := (system quiet).exists_run Settled start settledRun
    (fun s => s.link = .up ∧ s.starts = [0, 0]) ⟨_, rfl, rfl, rfl⟩
  obtain ⟨hstands, hempty⟩ := new_connection_undisturbed hrun
  exact ⟨s, hrun, hup, hstands hup, hstarts, hempty⟩

/-- The application disconnects and connects again while the first reader is in its `read`. -/
def hastyRun : List Act :=
  connectRun ++ List.replicate 2 (.reader 0 .ioException) ++ .disconnect :: List.replicate 7 (.owner true) ++ connectRun ++
    List.replicate 5 (.reader 0 .ioException)

/-- A connection ends in the middle of a frame, and the application connects when the reader has ended. -/
def leftoverRun : List Act :=
  connectRun ++ chunkRun 0 [0x4B, 0x4B] ++ endRun 0 ++ connectRun ++ chunkRun 1 [0x4B, 0x4B]

/-- The old reader's `finally` clears `running` and shuts the new scheduler down; and the first bytes of a new
connection come behind the last ones of the old. -/
theorem old_connection_disturbs :
    (∃ s, (system quiet).Runs (fun _ _ => True) start hastyRun s ∧ s.link = .up ∧ s.running = false ∧
      s.scheduler = none ∧ s.active = []) ∧
    ∃ s, (system quiet).Runs (fun _ _ => True) start leftoverRun s ∧ s.link = .up ∧ s.starts = [0, 2] :=
  ⟨(system quiet).exists_run (fun _ _ => True) start hastyRun
      (fun s => s.link = .up ∧ s.running = false ∧ s.scheduler = none ∧ s.active = []) ⟨_, rfl, rfl, rfl, rfl, rfl⟩,
    (system quiet).exists_run (fun _ _ => True) start leftoverRun (fun s => s.link = .up ∧ s.starts = [0, 2])
      ⟨_, rfl, rfl, rfl⟩⟩

end KnotLink.Java.Reconnecting
