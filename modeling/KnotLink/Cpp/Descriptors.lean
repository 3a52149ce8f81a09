import KnotLink.Cpp.Send
import KnotLink.Cpp.TcpClient
/-!
# C++ `TcpClient` and its descriptors (TcpClient.hpp:60-117, 176-257)

The thread that owns the client calls `connectToServer` and in the end the destructor; the read thread and the
heartbeat thread run beside it, and any thread calls `sendData`. All of them pass `tcpSocket` to the socket calls as
they find it. A step is one statement, or one turn of a loop up to its next call on the socket; it makes the call with
what `tcpSocket` holds then. A value loaded before a reset and passed to a call behind it is left out: `tcpSocket` is no
atomic, and a load that races with its reset has no meaning in C++.

`tcpSocket` is reset behind one of the five places that close it. `disciplined_throughout_iff` says that it holds a
closed descriptor in exactly these states: from a protocol error of `processBuffer` on, between the two statements of
the failed branch of `connectToServer`, and behind the first close of the destructor, which a second one follows; so
what is destroyed without a stale call has no descriptor (`destroyed_without_socket`).
-/
namespace KnotLink.Cpp.Descriptors
open Lib

/-- The socket calls that take a descriptor. -/
inductive SocketCall where
  | send
  | recv
  | close
  deriving DecidableEq, Repr

/-- The thread that owns the client. -/
inductive OwnerPc where
  | idle
  /-- `connectToServer`: before `connect`. -/
  | opened
  /-- Its failed branch: before `sock_close`, and before `tcpSocket = SOCK_INVALID`. -/
  | refused
  | resetting
  /-- Before `running = true`, before the read thread, before `startHeartbeat`. -/
  | accepted
  | startingReader
  | startingBeat
  /-- The destructor: in `stopHeartbeat`, before `running = false`. -/
  | joiningBeat
  | clearing
  /-- Its branch for a read thread: before `sock_close`, and in `join`. -/
  | closing
  | joiningReader
  /-- Before the last `sock_close`; whether there has been a read thread. -/
  | last (joined : Bool)
  | destroyed
  /-- `std::terminate`. -/
  | terminated
  deriving DecidableEq, Repr

inductive ReaderPc where
  | absent
  /-- Before the condition of its loop. -/
  | checking
  /-- Before `recv`. -/
  | calling
  | receiving
  /-- A protocol error: before `running = false`, and before `sock_close`. -/
  | malformed
  | closing
  | ended
  deriving DecidableEq, Repr

structure Client where
  /-- `running` and the calls of `sendData`. -/
  senders : Senders
  /-- `none` is `SOCK_INVALID`. -/
  tcpSocket : Option Nat
  /-- How many descriptors `socket()` has returned. -/
  sockets : Nat
  /-- The calls made with a descriptor, in order. -/
  log : List (SocketCall × Nat)
  owner : OwnerPc
  reader : ReaderPc
  /-- The heartbeat thread runs. -/
  beating : Bool
  recvBuffer : Bytes
  /-- The descriptor that `processBuffer` has closed last. -/
  rejected : Option Nat
  deriving DecidableEq, Repr

inductive Act where
  /-- `socket()` returns a descriptor, or `SOCK_INVALID`. -/
  | connectToServer (created : Bool)
  | destroy
  /-- The owner's next statement; `ok` is whether `connect` succeeds. -/
  | owner (ok : Bool)
  | sendData (data : Bytes)
  | heartbeat
  | lock (k : Nat)
  /-- The next `::send` of call `k`: so many bytes written, or -1. -/
  | send (k : Nat) (result : Option Nat)
  /-- The heartbeat thread leaves its loop. -/
  | beatEnds
  /-- The read thread's next statement; `result` is what `recv` comes to, -1 or so many bytes. -/
  | reader (result : Option Bytes)
  deriving DecidableEq, Repr

/-- `TcpClient()`. -/
def start : Client where
  senders := ⟨false, [], none, [], none⟩
  tcpSocket := none
  sockets := 0
  log := []
  owner := .idle
  reader := .absent
  beating := false
  recvBuffer := []
  rejected := none

/-- A socket call with what `tcpSocket` holds. -/
def call (s : Client) (c : SocketCall) : Client :=
  { s with log := s.log ++ (s.tcpSocket.map fun d => (c, d)).toList }

def setRunning (s : Client) (running : Bool) : Client := { s with senders := { s.senders with running } }

/-- `connectToServer` (TcpClient.hpp:71-94) from its `connect` on, and the destructor (TcpClient.hpp:60-69). -/
def ownerStep (s : Client) (ok : Bool) : Option Client :=
  match s.owner with
  | .idle | .destroyed | .terminated => none
  | .opened => some { s with owner := if ok then .accepted else .refused }
  | .refused => some { call s .close with owner := .resetting }
  | .resetting => some { s with tcpSocket := none, owner := .idle }
  | .accepted => some { setRunning s true with owner := .startingReader }
  | .startingReader =>
    if s.reader = .absent then some { s with reader := .checking, owner := .startingBeat }
    -- the assignment to a thread that was not joined
    else some { s with owner := .terminated }
  | .startingBeat => some { s with beating := true, owner := .idle }
  | .joiningBeat => if s.beating then none else some { s with owner := .clearing }
  | .clearing => some { setRunning s false with owner := if s.reader = .absent then .last false else .closing }
  | .closing => some { call s .close with owner := .joiningReader }
  | .joiningReader => if s.reader = .ended then some { s with owner := .last true } else none
  | .last _ => some { call s .close with owner := .destroyed }

/-- `readData` (TcpClient.hpp:228-257) with `processBuffer`. -/
def readerStep (s : Client) (result : Option Bytes) : Option Client :=
  match s.reader with
  | .absent | .ended => none
  | .checking => some { s with reader := if s.senders.running then .calling else .ended }
  | .calling => some { call s .recv with reader := .receiving }
  | .receiving =>
    match result with
    | none | some [] => some { setRunning s false with reader := .ended }
    | some (b :: chunk) =>
      let r := TcpClient.processBody.run ⟨true, s.recvBuffer ++ b :: chunk, []⟩
      some { s with recvBuffer := r.recvBuffer, reader := if r.running then .checking else .malformed }
  | .malformed => some { setRunning s false with reader := .closing }
  | .closing => some { call s .close with rejected := s.tcpSocket, reader := .checking }

/-- A step of `sendData` behind its test of `tcpSocket`. -/
def sendStep (behind : Bytes → Bytes) (s : Client) (a : SendAct) : Option Client :=
  (Senders.step behind s.senders a).map fun senders => { s with senders }

def step (behind : Bytes → Bytes) (s : Client) (a : Act) : Option Client :=
  if s.owner = .destroyed ∨ s.owner = .terminated then none
  else match a with
    | .connectToServer created =>
      if s.owner ≠ .idle then none
      else if created then some { s with tcpSocket := some s.sockets, sockets := s.sockets + 1, owner := .opened }
      else some { s with tcpSocket := none }
    | .destroy => if s.owner = .idle then some { s with owner := .joiningBeat } else none
    | .owner ok => ownerStep s ok
    | .sendData data => if s.tcpSocket = none then some s else sendStep behind s (.sendData data)
    | .heartbeat =>
      if ¬s.beating then none
      else if s.tcpSocket = none then some s
      else sendStep behind s .heartbeat
    | .lock k => sendStep behind s (.lock k)
    | .send k result =>
      -- a call with `SOCK_INVALID` returns -1
      if s.tcpSocket = none ∧ result ≠ none then none
      else sendStep behind (call s .send) (.send k result)
    | .beatEnds =>
      if s.beating ∧ s.senders.running = false ∧
          (s.senders.beat.bind fun k => s.senders.calls[k]?).all (·.pc.isOver) = true then
        some { s with beating := false }
      else none
    | .reader result => readerStep s result

def system (behind : Bytes → Bytes) : System Client Act := ⟨step behind⟩

/-- No call gets a descriptor that has been closed. -/
def Disciplined (s : Client) : Prop := s.log.Pairwise fun x y => x.1 = .close → y.2 ≠ x.2

/-- The owner is behind a close of what `tcpSocket` still holds. -/
def OwnerPc.behindClose : OwnerPc → Bool
  | resetting | joiningReader | last true | destroyed => true
  | _ => false

/-- `tcpSocket` holds a descriptor, and `processBuffer` has found a protocol error on it or the owner has closed it. -/
def Stale (s : Client) : Prop :=
  s.tcpSocket ≠ none ∧ (s.rejected = s.tcpSocket ∨ s.owner.behindClose = true)

instance (s : Client) : Decidable (Stale s) := inferInstanceAs (Decidable (_ ∧ _))

/-- The socket call of a step. -/
def Act.socketCall (s : Client) : Act → Option SocketCall
  | .send .. => some .send
  | .reader _ =>
    match s.reader with
    | .calling => some .recv
    | .closing => some .close
    | _ => none
  | .owner _ =>
    match s.owner with
    | .refused | .closing | .last _ => some .close
    | _ => none
  | _ => none

/-- A step with a socket call is taken while `tcpSocket` is not stale. -/
def Careful (s : Client) (a : Act) : Prop := a.socketCall s ≠ none → ¬Stale s

instance (s : Client) (a : Act) : Decidable (Careful s a) := inferInstanceAs (Decidable (_ → _))

/-! ## What `tcpSocket` holds -/

/-- A descriptor in `tcpSocket` has been closed exactly when it is stale. -/
structure Inv (s : Client) : Prop where
  log : ∀ x ∈ s.log, x.2 < s.sockets
  tcpSocket : ∀ d ∈ s.tcpSocket, d < s.sockets
  rejected : ∀ d ∈ s.rejected, d < s.sockets
  closed : ∀ d ∈ s.tcpSocket, (.close, d) ∈ s.log ↔ Stale s

variable {behind : Bytes → Bytes} {s u : Client} {a : Act} {c : SocketCall}

theorem start_inv : Inv start where
  log := by simp [start]
  tcpSocket := by simp [start]
  rejected := by simp [start]
  closed := by simp [start]

/-- A socket call is one more entry of the log, or none without a descriptor. -/
theorem call_log (s : Client) (c : SocketCall) :
    (call s c).log = s.log ∧ s.tcpSocket = none ∨ ∃ d, s.tcpSocket = some d ∧ (call s c).log = s.log ++ [(c, d)] := by
  unfold call
  cases hd : s.tcpSocket with
  | none => exact .inl ⟨List.append_nil _, rfl⟩
  | some d => exact .inr ⟨d, rfl, rfl⟩

/-- A socket call keeps the discipline exactly when `tcpSocket` is not stale. -/
theorem Inv.disciplined_call (h : Inv s) (hdis : Disciplined s) (hu : u.log = (call s c).log) :
    Disciplined u ↔ ¬Stale s := by
  unfold Disciplined
  rw [hu]
  rcases call_log s c with ⟨hlog, hnone⟩ | ⟨d, hd, hlog⟩ <;> rw [hlog]
  · exact iff_of_true hdis fun hstale => hstale.1 hnone
  · rw [List.pairwise_append, ← h.closed d hd]
    constructor
    · rintro ⟨-, -, hlast⟩ hmem
      exact hlast _ hmem (c, d) (by simp) rfl rfl
    · intro hnot
      refine ⟨hdis, by simp, fun x hx y hy hclose => ?_⟩
      rw [List.mem_singleton.1 hy]
      rintro rfl
      refine hnot ?_
      rw [← hclose]
      exact hx

/-- A step without a socket call keeps the discipline. -/
theorem silent (hdis : Disciplined s) (hlog : u.log = s.log) (hcall : a.socketCall s = none) :
    Disciplined u ↔ Careful s a := by
  unfold Disciplined
  rw [hlog]
  exact iff_of_true hdis fun hsome => absurd hcall hsome

/-- A step with one. -/
theorem Inv.calls (h : Inv s) (hdis : Disciplined s) (hlog : u.log = (call s c).log)
    (hcall : a.socketCall s = some c) : Disciplined u ↔ Careful s a := by
  rw [h.disciplined_call hdis hlog]
  unfold Careful
  simp [hcall]

/-- Neither `tcpSocket` nor what makes it stale moves. -/
theorem Inv.keep (h : Inv s)
    (hu : u.log = s.log ∧ u.tcpSocket = s.tcpSocket ∧ u.sockets = s.sockets ∧ u.rejected = s.rejected)
    (ho : u.owner.behindClose = s.owner.behindClose) : Inv u := by
  obtain ⟨hlog, hsocket, hsockets, hrejected⟩ := hu
  have hstale : Stale u ↔ Stale s := by rw [Stale, Stale, hsocket, hrejected, ho]
  refine ⟨?_, ?_, ?_, ?_⟩
  · rw [hlog, hsockets]
    exact h.log
  · rw [hsocket, hsockets]
    exact h.tcpSocket
  · rw [hrejected, hsockets]
    exact h.rejected
  · rw [hsocket, hlog, hstale]
    exact h.closed

theorem Inv.call_lt (h : Inv s) : ∀ x ∈ (call s c).log, x.2 < s.sockets := by
  intro x hx
  rcases call_log s c with ⟨hlog, -⟩ | ⟨d, hd, hlog⟩ <;> rw [hlog] at hx
  · exact h.log x hx
  · rcases List.mem_append.1 hx with hx | hx
    · exact h.log x hx
    · rw [List.mem_singleton.1 hx]
      exact h.tcpSocket d hd

/-- A call that does not close. -/
theorem Inv.use (h : Inv s) (hc : c ≠ .close) : Inv (call s c) where
  log := h.call_lt
  tcpSocket := h.tcpSocket
  rejected := h.rejected
  closed := by
    intro d hd
    refine Iff.trans ?_ (h.closed d hd)
    rcases call_log s c with ⟨hlog, -⟩ | ⟨e, -, hlog⟩ <;> rw [hlog]
    simp [hc.symm]

/-- A call that closes, behind which `tcpSocket` is stale. -/
theorem Inv.close (h : Inv s) (hu : u.log = (call s .close).log ∧ u.tcpSocket = s.tcpSocket ∧ u.sockets = s.sockets)
    (hrejected : u.rejected = s.rejected ∨ u.rejected = s.tcpSocket)
    (hstale : u.rejected = s.tcpSocket ∨ u.owner.behindClose = true) : Inv u := by
  obtain ⟨hlog, hsocket, hsockets⟩ := hu
  refine ⟨?_, ?_, ?_, ?_⟩
  · rw [hlog, hsockets]
    exact h.call_lt
  · rw [hsocket, hsockets]
    exact h.tcpSocket
  · rw [hsockets]
    rcases hrejected with hr | hr <;> rw [hr]
    · exact h.rejected
    · exact h.tcpSocket
  · rw [hsocket, hlog]
    intro d hd
    refine iff_of_true ?_ ⟨by rw [hsocket, hd]; simp, hsocket ▸ hstale⟩
    rcases call_log s .close with ⟨-, hnone⟩ | ⟨e, he, hlog⟩
    · simp [hnone] at hd
    · rw [hlog]
      obtain rfl := Option.some.inj (he.symm.trans hd)
      simp

/-- `socket()`: a descriptor that has never been there, or none. -/
theorem Inv.opened (h : Inv s) : Inv { s with
    tcpSocket := some s.sockets
    sockets := s.sockets + 1
    owner := .opened } where
  log x hx := Nat.lt_succ_of_lt (h.log x hx)
  tcpSocket := by simp
  rejected d hd := Nat.lt_succ_of_lt (h.rejected d hd)
  closed := by
    rintro d hd
    obtain rfl := Option.some.inj hd
    refine iff_of_false (fun hmem => Nat.lt_irrefl _ (h.log _ hmem)) ?_
    rintro ⟨-, hr | hb⟩
    · exact Nat.lt_irrefl _ (h.rejected _ hr)
    · cases hb

theorem Inv.reset (h : Inv s) {owner : OwnerPc} : Inv { s with tcpSocket := none, owner } where
  log := h.log
  tcpSocket := by simp
  rejected := h.rejected
  closed := by simp

/-! ## Steps -/

/-- A step without a socket call that leaves `tcpSocket`, and what makes it stale, alone. -/
theorem Inv.quiet (h : Inv s) (hdis : Disciplined s) (hcall : a.socketCall s = none)
    (hu : u.log = s.log ∧ u.tcpSocket = s.tcpSocket ∧ u.sockets = s.sockets ∧ u.rejected = s.rejected)
    (ho : u.owner.behindClose = s.owner.behindClose) : Inv u ∧ (Disciplined u ↔ Careful s a) :=
  ⟨h.keep hu ho, silent hdis hu.1 hcall⟩

theorem ownerStep_spec {ok : Bool} (h : Inv s) (hdis : Disciplined s) (hst : ownerStep s ok = some u) :
    Inv u ∧ (Disciplined u ↔ Careful s (.owner ok)) := by
  unfold ownerStep at hst
  cases ho : s.owner with
  | idle | destroyed | terminated =>
    rw [ho] at hst
    cases hst
  | opened =>
    rw [ho] at hst
    cases hst
    exact h.quiet hdis (by simp [Act.socketCall, ho]) ⟨rfl, rfl, rfl, rfl⟩ (by rw [ho]; cases ok <;> rfl)
  | resetting =>
    rw [ho] at hst
    cases hst
    exact ⟨h.reset, silent hdis rfl (by simp [Act.socketCall, ho])⟩
  | accepted | startingBeat =>
    rw [ho] at hst
    cases hst
    exact h.quiet hdis (by simp [Act.socketCall, ho]) ⟨rfl, rfl, rfl, rfl⟩ (by rw [ho]; rfl)
  | startingReader =>
    rw [ho] at hst
    dsimp only at hst
    split at hst <;> cases hst
    · exact h.quiet hdis (by simp [Act.socketCall, ho]) ⟨rfl, rfl, rfl, rfl⟩ (by rw [ho]; rfl)
    · exact h.quiet hdis (by simp [Act.socketCall, ho]) ⟨rfl, rfl, rfl, rfl⟩ (by rw [ho]; rfl)
  | joiningBeat | joiningReader =>
    rw [ho] at hst
    dsimp only at hst
    split at hst <;> cases hst
    exact h.quiet hdis (by simp [Act.socketCall, ho]) ⟨rfl, rfl, rfl, rfl⟩ (by rw [ho]; rfl)
  | clearing =>
    rw [ho] at hst
    cases hst
    refine h.quiet hdis (by simp [Act.socketCall, ho]) ⟨rfl, rfl, rfl, rfl⟩ ?_
    rw [ho]
    dsimp only
    split <;> rfl
  | refused | closing | last =>
    rw [ho] at hst
    cases hst
    exact ⟨h.close ⟨rfl, rfl, rfl⟩ (.inl rfl) (.inr rfl), h.calls hdis rfl (by simp [Act.socketCall, ho])⟩

theorem readerStep_spec {result : Option Bytes} (h : Inv s) (hdis : Disciplined s)
    (hst : readerStep s result = some u) : Inv u ∧ (Disciplined u ↔ Careful s (.reader result)) := by
  unfold readerStep at hst
  cases hr : s.reader with
  | absent | ended =>
    rw [hr] at hst
    cases hst
  | checking | malformed =>
    rw [hr] at hst
    cases hst
    exact h.quiet hdis (by simp [Act.socketCall, hr]) ⟨rfl, rfl, rfl, rfl⟩ rfl
  | calling =>
    rw [hr] at hst
    cases hst
    exact ⟨(h.use (by simp)).keep ⟨rfl, rfl, rfl, rfl⟩ rfl, h.calls hdis rfl (by simp [Act.socketCall, hr])⟩
  | receiving =>
    rw [hr] at hst
    dsimp only at hst
    split at hst <;> cases hst
    all_goals exact h.quiet hdis (by simp [Act.socketCall, hr]) ⟨rfl, rfl, rfl, rfl⟩ rfl
  | closing =>
    rw [hr] at hst
    cases hst
    exact ⟨h.close ⟨rfl, rfl, rfl⟩ (.inr rfl) (.inl rfl), h.calls hdis rfl (by simp [Act.socketCall, hr])⟩

theorem sendStep_frame {b : SendAct} (hst : sendStep behind s b = some u) : ∃ senders, u = { s with senders } := by
  obtain ⟨senders, -, rfl⟩ := Option.map_eq_some_iff.1 hst
  exact ⟨senders, rfl⟩

theorem step_spec (h : Inv s) (hdis : Disciplined s) (hst : step behind s a = some u) :
    Inv u ∧ (Disciplined u ↔ Careful s a) := by
  unfold step at hst
  split at hst
  · cases hst
  cases a with
  | connectToServer created =>
    dsimp only at hst
    split at hst
    · cases hst
    · split at hst <;> cases hst
      · exact ⟨h.opened, silent hdis rfl rfl⟩
      · exact ⟨h.reset, silent hdis rfl rfl⟩
  | destroy =>
    dsimp only at hst
    split at hst <;> cases hst
    rename_i ho
    exact h.quiet hdis rfl ⟨rfl, rfl, rfl, rfl⟩ (by rw [ho]; rfl)
  | owner ok => exact ownerStep_spec h hdis hst
  | sendData data =>
    dsimp only at hst
    split at hst
    · cases hst
      exact ⟨h, silent hdis rfl rfl⟩
    · obtain ⟨senders, rfl⟩ := sendStep_frame hst
      exact h.quiet hdis rfl ⟨rfl, rfl, rfl, rfl⟩ rfl
  | heartbeat =>
    dsimp only at hst
    split at hst
    · cases hst
    split at hst
    · cases hst
      exact ⟨h, silent hdis rfl rfl⟩
    · obtain ⟨senders, rfl⟩ := sendStep_frame hst
      exact h.quiet hdis rfl ⟨rfl, rfl, rfl, rfl⟩ rfl
  | lock k =>
    obtain ⟨senders, rfl⟩ := sendStep_frame hst
    exact h.quiet hdis rfl ⟨rfl, rfl, rfl, rfl⟩ rfl
  | send k result =>
    dsimp only at hst
    split at hst
    · cases hst
    · obtain ⟨senders, rfl⟩ := sendStep_frame hst
      exact ⟨(h.use (c := .send) (by simp)).keep ⟨rfl, rfl, rfl, rfl⟩ rfl, h.calls hdis rfl rfl⟩
  | beatEnds =>
    dsimp only at hst
    split at hst <;> cases hst
    exact h.quiet hdis rfl ⟨rfl, rfl, rfl, rfl⟩ rfl
  | reader result => exact readerStep_spec h hdis hst

/-! ## Runs -/

/-- **Descriptor discipline.** No call gets a closed descriptor, in any state of a run, exactly when every socket call
of the run is made while `tcpSocket` is not stale. -/
theorem disciplined_throughout_iff {as : List Act} {t : Client}
    (h : (system behind).Runs (fun _ _ => True) start as t) :
    (system behind).Throughout Disciplined start as ↔ (system behind).Runs Careful start as t :=
  h.throughout_iff_runs (fun h hdis hst => step_spec h hdis hst) start_inv .nil

/-- The server refuses once, accepts, and closes when one message has been sent. -/
def servedRun : List Act :=
  [.connectToServer true, .owner false, .owner true, .owner true, .connectToServer true, .owner true, .owner true,
    .owner true, .owner true, .reader none, .reader none, .sendData [1], .lock 0, .send 0 (some 4), .send 0 (some 4),
    .send 0 (some 1), .reader (some [])]

theorem disciplined_throughout_iff_served : ∃ t, (system fun _ => []).Runs (fun _ _ => True) start servedRun t ∧
    t.log = [(.close, 0), (.recv, 1), (.send, 1), (.send, 1), (.send, 1)] ∧
    (system fun _ => []).Throughout Disciplined start servedRun := by
  obtain ⟨t, hcareful, hlog⟩ := (system fun _ => []).exists_run Careful start servedRun
    (fun t => t.log = [(.close, 0), (.recv, 1), (.send, 1), (.send, 1), (.send, 1)]) ⟨_, rfl, rfl⟩
  have hrun := hcareful.mono (q := fun _ _ => True) fun _ _ _ => trivial
  exact ⟨t, hrun, hlog, (disciplined_throughout_iff hrun).2 hcareful⟩

/-- The server closes, and the client is destroyed. -/
def destroyedRun : List Act :=
  [.connectToServer true, .owner true, .owner true, .owner true, .owner true, .reader none, .reader none,
    .reader (some []), .beatEnds, .destroy, .owner true, .owner true, .owner true, .owner true, .owner true]

theorem destructor_closes_twice : ∃ s, (system fun _ => []).Runs (fun _ _ => True) start destroyedRun s ∧
    s.owner = .destroyed ∧ s.log = [(.recv, 0), (.close, 0), (.close, 0)] ∧ ¬Disciplined s := by
  obtain ⟨s, hrun, howner, hlog⟩ := (system fun _ => []).exists_run (fun _ _ => True) start destroyedRun
    (fun s => s.owner = .destroyed ∧ s.log = [(.recv, 0), (.close, 0), (.close, 0)]) ⟨_, rfl, rfl, rfl⟩
  exact ⟨s, hrun, howner, hlog, by simp [Disciplined, hlog]⟩

/-! ## The end of such a run -/

/-- Up to the start of the read thread. -/
def OwnerPc.connecting : OwnerPc → Bool
  | opened | refused | resetting | accepted | startingReader => true
  | _ => false

/-- A client without a read thread has no descriptor but in `connectToServer`, and a destroyed one has none. -/
structure Unopened (s : Client) : Prop where
  absent : s.reader = .absent → s.owner.connecting = false → s.tcpSocket = none
  last : s.owner = .last false → s.tcpSocket = none
  destroyed : s.owner = .destroyed → s.tcpSocket = none

/-- The owner stays, and so does `tcpSocket`. -/
theorem Unopened.keep (h : Unopened s) (ho : u.owner = s.owner) (hsocket : u.tcpSocket = s.tcpSocket)
    (hreader : u.reader = .absent → s.reader = .absent) : Unopened u := by
  refine ⟨fun hr => ?_, ?_, ?_⟩
  · rw [ho, hsocket]
    exact h.absent (hreader hr)
  · rw [ho, hsocket]
    exact h.last
  · rw [ho, hsocket]
    exact h.destroyed

theorem ownerStep_unopened {ok : Bool} (h : Unopened s) (hcareful : Careful s (.owner ok))
    (hst : ownerStep s ok = some u) : Unopened u := by
  unfold ownerStep at hst
  cases ho : s.owner with
  | idle | destroyed | terminated =>
    rw [ho] at hst
    cases hst
  | opened =>
    rw [ho] at hst
    cases hst
    cases ok <;> exact ⟨by simp [OwnerPc.connecting], by simp, by simp⟩
  | refused | accepted =>
    rw [ho] at hst
    cases hst
    exact ⟨by simp [OwnerPc.connecting], by simp, by simp⟩
  | resetting =>
    rw [ho] at hst
    cases hst
    exact ⟨by simp, by simp, by simp⟩
  | startingReader =>
    rw [ho] at hst
    dsimp only at hst
    split at hst <;> cases hst
    · exact ⟨by simp, by simp, by simp⟩
    · exact ⟨fun hr => absurd hr ‹_›, by simp, by simp⟩
  | startingBeat =>
    rw [ho] at hst
    cases hst
    exact ⟨fun hr _ => h.absent hr (by rw [ho]; rfl), by simp, by simp⟩
  | joiningBeat =>
    rw [ho] at hst
    dsimp only at hst
    split at hst <;> cases hst
    exact ⟨fun hr _ => h.absent hr (by rw [ho]; rfl), by simp, by simp⟩
  | clearing =>
    rw [ho] at hst
    cases hst
    have hnone (hr : s.reader = .absent) : s.tcpSocket = none := h.absent hr (by rw [ho]; rfl)
    refine ⟨fun hr _ => hnone hr, fun hl => ?_, fun hd => ?_⟩
    · by_cases hr : s.reader = .absent
      · exact hnone hr
      · simp [hr] at hl
    · simp only at hd
      split at hd <;> cases hd
  | closing =>
    rw [ho] at hst
    cases hst
    exact ⟨fun hr _ => h.absent hr (by rw [ho]; rfl), by simp, by simp⟩
  | joiningReader =>
    rw [ho] at hst
    dsimp only at hst
    split at hst <;> cases hst
    exact ⟨fun hr _ => h.absent hr (by rw [ho]; rfl), by simp, by simp⟩
  | last joined =>
    -- behind the first close the last one is not careful
    have hnone : s.tcpSocket = none := by
      cases joined with
      | false => exact h.last ho
      | true =>
        by_contra hsome
        exact hcareful (by simp [Act.socketCall, ho]) ⟨hsome, .inr (by rw [ho]; rfl)⟩
    rw [ho] at hst
    cases hst
    exact ⟨fun _ _ => hnone, fun _ => hnone, fun _ => hnone⟩

theorem step_unopened (h : Unopened s) (hcareful : Careful s a) (hst : step behind s a = some u) : Unopened u := by
  unfold step at hst
  split at hst
  · cases hst
  cases a with
  | connectToServer created =>
    dsimp only at hst
    split at hst
    · cases hst
    · split at hst <;> cases hst
      · exact ⟨by simp [OwnerPc.connecting], by simp, by simp⟩
      · exact ⟨by simp, by simp, by simp⟩
  | destroy =>
    dsimp only at hst
    split at hst <;> cases hst
    rename_i ho
    exact ⟨fun hr _ => h.absent hr (by rw [ho]; rfl), by simp, by simp⟩
  | owner ok => exact ownerStep_unopened h hcareful hst
  | sendData data =>
    dsimp only at hst
    split at hst
    · cases hst
      exact h
    · obtain ⟨senders, rfl⟩ := sendStep_frame hst
      exact h.keep rfl rfl id
  | heartbeat =>
    dsimp only at hst
    split at hst
    · cases hst
    split at hst
    · cases hst
      exact h
    · obtain ⟨senders, rfl⟩ := sendStep_frame hst
      exact h.keep rfl rfl id
  | lock k =>
    obtain ⟨senders, rfl⟩ := sendStep_frame hst
    exact h.keep rfl rfl id
  | send k result =>
    dsimp only at hst
    split at hst
    · cases hst
    · obtain ⟨senders, rfl⟩ := sendStep_frame hst
      exact h.keep rfl rfl id
  | beatEnds =>
    dsimp only at hst
    split at hst <;> cases hst
    exact h.keep rfl rfl id
  | reader result =>
    dsimp only [readerStep] at hst
    cases hr : s.reader with
    | absent | ended =>
      rw [hr] at hst
      cases hst
    | checking =>
      rw [hr] at hst
      cases hst
      refine h.keep rfl rfl fun hu => ?_
      dsimp only at hu
      split at hu <;> cases hu
    | calling | malformed | closing =>
      rw [hr] at hst
      cases hst
      exact h.keep rfl rfl fun hu => by cases hu
    | receiving =>
      rw [hr] at hst
      dsimp only at hst
      split at hst <;> cases hst
      · exact h.keep rfl rfl fun hu => by cases hu
      · exact h.keep rfl rfl fun hu => by cases hu
      · refine h.keep rfl rfl fun hu => ?_
        dsimp only at hu
        split at hu <;> cases hu

/-- **Destruction.** A run without a stale call destroys only a client without a descriptor: one that has never
connected, or whose last `connectToServer` has failed. -/
theorem destroyed_without_socket {as : List Act} (h : (system behind).Runs Careful start as s)
    (hd : s.owner = .destroyed) : s.tcpSocket = none := by
  have hstart : Unopened start := ⟨fun _ _ => rfl, fun _ => rfl, fun _ => rfl⟩
  exact (h.invariant (fun h ha hst => step_unopened h ha hst) hstart).destroyed hd

end KnotLink.Cpp.Descriptors
