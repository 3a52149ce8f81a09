import KnotLink.Cpp.Descriptors
/-!
# C++: the waits of constructors and destructors (TcpClient.hpp:60-127, 176-188, OpenSocketQuerier.hpp:22-35)

The constructors of `OpenSocketQuerier`, `OpenSocketResponser` and `SignalSubscriber` call `connectToServer`, whatever
it returns, and then loop until `running` is set; their destructors, and `SignalSubscriber::stop`, join the heartbeat
thread and then delete the client, whose destructor clears `running`, closes the socket and joins the read thread. The
read thread and the heartbeat thread clear `running` when a socket call fails; nobody else does before the heartbeat
thread is joined.

A step is one statement; a call of `sendData` is one, so `::send` never blocks here: it takes the bytes or fails. The
peer's steps are the chunks it sends, its close and the break of the connection; from some step on the system may refuse
to send. `closeWakes` says whether the system wakes a
`recv` when another thread closes its socket.
-/
namespace KnotLink.Cpp.Waits
open Lib
open Descriptors (ReaderPc)

/-- What follows a join of the heartbeat thread. -/
inductive Join where
  /-- `SignalSubscriber::stop` returns. -/
  | stop
  /-- `delete` follows. -/
  | destructor
  /-- The destructor of `TcpClient` goes on. -/
  | client
  deriving DecidableEq, Repr

/-- The thread that constructs and destroys. -/
inductive OwnerPc where
  /-- In `connect`. -/
  | connecting
  /-- Before `running = true`, before the read thread, before `startHeartbeat`. -/
  | accepted
  | startingReader
  | startingBeat
  /-- `while (!running)`. -/
  | waiting
  | idle
  /-- In `stopHeartbeat`. -/
  | stopping (join : Join)
  /-- The destructor of `TcpClient`: before `running = false`, before `sock_close`, in `join`, before the last close. -/
  | clearing
  | closing
  | joiningReader
  | last
  | gone
  deriving DecidableEq, Repr

inductive BeatPc where
  /-- Not started, or joined. -/
  | absent
  /-- Before the condition of its loop. -/
  | checking
  | sleeping
  /-- Before its second look at `running`. -/
  | testing
  | sending
  | ended
  deriving DecidableEq, Repr

/-- A join of the heartbeat thread does not wait. -/
def BeatPc.over : BeatPc → Bool
  | absent | ended => true
  | checking | sleeping | testing | sending => false

/-- What `recv` comes to when everything that has arrived is read. -/
inductive Link where
  | up
  /-- 0: the peer has closed. -/
  | closed
  /-- -1, also before. -/
  | broken
  deriving DecidableEq, Repr

structure Client where
  running : Bool
  owner : OwnerPc
  reader : ReaderPc
  beat : BeatPc
  link : Link
  /-- The chunks that have arrived and are not read. -/
  pending : List Bytes
  /-- The system refuses to send. -/
  fault : Bool
  /-- The client has closed the descriptor. -/
  socketClosed : Bool
  recvBuffer : Bytes
  delivered : List Bytes
  deriving DecidableEq, Repr

inductive Act where
  /-- The owner's next statement; `ok` is whether `connect` succeeds. -/
  | owner (ok : Bool)
  | stop
  | destroy
  | reader
  /-- The heartbeat thread's next statement; `ok` is whether a `::send` on a connection that is not up returns. -/
  | beat (ok : Bool)
  /-- A call by the application or by a callback. -/
  | sendData (ok : Bool)
  | peerSends (chunk : Bytes)
  | peerCloses
  | linkBreaks
  | sendsFail
  deriving DecidableEq, Repr

/-- A constructor in `connectToServer`. -/
def start : Client := ⟨false, .connecting, .absent, .absent, .up, [], false, false, [], []⟩

/-- A `::send` returns -1. -/
def sendFails (s : Client) (ok : Bool) : Bool := s.fault || s.socketClosed || (s.link != .up && !ok)

/-- `sendData` with `handleError` (TcpClient.hpp:96-117, 185-188). -/
def sendData (s : Client) (ok : Bool) : Client := if sendFails s ok then { s with running := false } else s

/-- `recv` returns 0 or -1 (TcpClient.hpp:236-255). -/
def lost (s : Client) : Client := { s with running := false, reader := .ended }

/-- `recv` returns a chunk, and `processBuffer` looks at it. -/
def received (s : Client) (chunk : Bytes) (pending : List Bytes) : Client :=
  let r := TcpClient.readTurn ⟨true, s.recvBuffer, s.delivered⟩ chunk
  { s with
    pending
    recvBuffer := r.recvBuffer
    delivered := r.delivered
    reader := if r.running then .checking else .malformed }

/-- The constructors (TcpClient.hpp:71-94, OpenSocketQuerier.hpp:22-30) and destructors (TcpClient.hpp:60-69,
OpenSocketQuerier.hpp:32-35). -/
def ownerStep (s : Client) (ok : Bool) : Option Client :=
  match s.owner with
  | .idle | .gone => none
  | .connecting => some { s with owner := if ok then .accepted else .waiting }
  | .accepted => some { s with running := true, owner := .startingReader }
  | .startingReader => some { s with reader := .checking, owner := .startingBeat }
  | .startingBeat => some { s with beat := .checking, owner := .waiting }
  | .waiting => some (if s.running then { s with owner := .idle } else s)
  | .stopping join =>
    if ¬s.beat.over then none
    else some { s with beat := .absent, owner := match join with
      | .stop => .idle
      | .destructor => .stopping .client
      | .client => .clearing }
  | .clearing => some { s with running := false, owner := if s.reader = .absent then .last else .closing }
  -- `tcpSocket` is a descriptor: a refused constructor does not come here
  | .closing => some { s with socketClosed := true, owner := .joiningReader }
  | .joiningReader => if s.reader = .ended then some { s with owner := .last } else none
  | .last => some { s with owner := .gone }

/-- `readData` (TcpClient.hpp:228-257). -/
def readerStep (closeWakes : Bool) (s : Client) : Option Client :=
  match s.reader with
  | .absent | .ended => none
  | .checking => some { s with reader := if s.running then .calling else .ended }
  | .calling => some (if s.socketClosed then lost s else { s with reader := .receiving })
  | .receiving =>
    match s.link, s.pending with
    | .broken, _ | .closed, [] => some (lost s)
    | .up, [] => if closeWakes && s.socketClosed then some (lost s) else none
    | .up, chunk :: pending | .closed, chunk :: pending => some (received s chunk pending)
  | .malformed => some { s with running := false, reader := .closing }
  | .closing => some { s with socketClosed := true, reader := .checking }

/-- `sendHeartbeat` (TcpClient.hpp:176-183). -/
def beatStep (s : Client) (ok : Bool) : Option Client :=
  match s.beat with
  | .absent | .ended => none
  | .checking => some { s with beat := if s.running then .sleeping else .ended }
  | .sleeping => some { s with beat := .testing }
  | .testing => some { s with beat := if s.running then .sending else .checking }
  | .sending => some { sendData s ok with beat := .checking }

def step (closeWakes : Bool) (s : Client) : Act → Option Client
  | .owner ok => ownerStep s ok
  | .stop => if s.owner = .idle then some { s with owner := .stopping .stop } else none
  | .destroy => if s.owner = .idle then some { s with owner := .stopping .destructor } else none
  | .reader => readerStep closeWakes s
  | .beat ok => beatStep s ok
  | .sendData ok => if s.reader = .absent then none else some (sendData s ok)
  | .peerSends chunk =>
    if s.link = .up ∧ chunk ≠ [] then some { s with pending := s.pending ++ [chunk] } else none
  | .peerCloses => if s.link = .up then some { s with link := .closed } else none
  | .linkBreaks => some { s with link := .broken }
  | .sendsFail => some { s with fault := true }

def system (closeWakes : Bool) : System Client Act := ⟨step closeWakes⟩

/-- A step of the program's other threads. -/
def Act.others : Act → Prop
  | reader | beat _ | sendData _ => True
  | owner _ | stop | destroy | peerSends _ | peerCloses | linkBreaks | sendsFail => False

/-- What the owner waits for is there. -/
def Over (s : Client) : Prop :=
  match s.owner with
  | .waiting => s.running = true
  | .stopping _ => s.beat.over = true
  | .joiningReader => s.reader = .ended
  | _ => True

/-- The other threads alone can end the wait. -/
def WaitEnds (closeWakes : Bool) (s : Client) : Prop :=
  (system closeWakes).CanReach (fun _ a => a.others) Over s

/-- The read thread or the heartbeat thread clears `running`, or it is clear: the connection is not up, sending fails,
or what has arrived has a protocol error in it. -/
def Failing (s : Client) : Prop :=
  s.running = false ∨ s.fault = true ∨ s.link ≠ .up ∨ s.reader = .malformed ∨
    (TcpClient.readChunks ⟨true, s.recvBuffer, s.delivered⟩ s.pending).running = false

instance (s : Client) : Decidable (Failing s) := by
  unfold Failing
  infer_instance

/-- The read thread does not sit in `recv` for good. -/
def Roused (closeWakes : Bool) (s : Client) : Prop :=
  s.reader = .receiving → closeWakes = true ∨ s.pending ≠ [] ∨ s.link ≠ .up

instance (closeWakes : Bool) (s : Client) : Decidable (Roused closeWakes s) := by
  unfold Roused
  infer_instance

/-- `connectToServer` succeeds in a constructor, and nothing clears `running` before the constructor has left its
loop; the heartbeat thread is joined when it has ended or the client is failing; the destructor closes the socket when
the read thread does not sit in `recv`. -/
def Heeded (closeWakes : Bool) (s : Client) : Act → Prop
  | .owner ok =>
    match s.owner with
    | .connecting => ok = true
    | .startingBeat => s.running = true
    | .closing => Roused closeWakes s
    | _ => True
  | .stop | .destroy => s.beat.over = true ∨ Failing s
  | .reader => s.owner = .waiting →
    ¬(s.reader = .malformed ∨ s.reader = .receiving ∧ (s.link = .broken ∨ s.pending = []))
  | .beat ok => s.owner = .waiting → s.beat = .sending → sendFails s ok = false
  | .sendData ok => s.owner = .waiting → sendFails s ok = false
  | _ => True

instance (closeWakes : Bool) (s : Client) (a : Act) : Decidable (Heeded closeWakes s a) := by
  unfold Heeded
  split
  · split <;> infer_instance
  all_goals infer_instance

/-! ## What holds in every run -/

/-- `connectToServer` has not started the read thread. -/
def OwnerPc.before : OwnerPc → Bool
  | connecting | accepted | startingReader => true
  | _ => false

/-- The destructor has cleared `running`. -/
def OwnerPc.cleared : OwnerPc → Bool
  | closing | joiningReader | last | gone => true
  | _ => false

structure Inv (s : Client) : Prop where
  before : s.owner.before = true → s.reader = .absent ∧ s.beat = .absent ∧ s.socketClosed = false
  absent : s.reader = .absent → s.beat = .absent ∧ (s.owner.before = true ∨ s.owner = .waiting)
  failed : s.reader = .absent → s.owner = .connecting ∨ s.owner = .waiting → s.running = false
  reader : s.reader = .ended ∨ s.reader = .closing → s.running = false
  socket : s.socketClosed = true → s.running = false
  cleared : s.owner.cleared = true → s.running = false
  joining : s.owner = .joiningReader → s.socketClosed = true

variable {closeWakes : Bool} {s u t : Client} {a : Act}

theorem start_inv : Inv start := by constructor <;> simp [start, OwnerPc.before]

theorem sendData_frame (s : Client) (ok : Bool) : ∃ running, sendData s ok = { s with running } ∧
    (s.running = false → running = false) := by
  unfold sendData
  split
  · exact ⟨false, rfl, fun _ => rfl⟩
  · exact ⟨s.running, rfl, id⟩

/-- `running` is cleared, or stays. -/
theorem Inv.clear (h : Inv s) {running : Bool} (hr : s.running = false → running = false) :
    Inv { s with running } where
  before := h.before
  absent := h.absent
  failed hab ho := hr (h.failed hab ho)
  reader hs := hr (h.reader hs)
  socket hs := hr (h.socket hs)
  cleared hs := hr (h.cleared hs)
  joining := h.joining

/-- The read thread moves. -/
theorem Inv.read (h : Inv s) (hpc : s.reader ≠ .absent) {pc : ReaderPc} (hpc' : pc ≠ .absent)
    {running socketClosed : Bool} {pending : List Bytes} {recvBuffer : Bytes} {delivered : List Bytes}
    (hr : s.running = false → running = false) (hreader : pc = .ended ∨ pc = .closing → running = false)
    (hkeep : s.socketClosed = true → socketClosed = true) (hsocket : socketClosed = true → running = false) :
    Inv { s with running, reader := pc, socketClosed, pending, recvBuffer, delivered } where
  before hb := absurd (h.before hb).1 hpc
  absent hab := absurd hab hpc'
  failed hab := absurd hab hpc'
  reader := hreader
  socket := hsocket
  cleared hs := hr (h.cleared hs)
  joining ho := hkeep (h.joining ho)

/-- The ways a step of the read thread can go. -/
inductive ReadStep (closeWakes : Bool) (s : Client) : Client → Prop where
  | checked (hr : s.reader = .checking) :
      ReadStep closeWakes s { s with reader := if s.running then .calling else .ended }
  | called (hr : s.reader = .calling) (hopen : s.socketClosed = false) :
      ReadStep closeWakes s { s with reader := .receiving }
  | refused (hr : s.reader = .calling) (hclosed : s.socketClosed = true) : ReadStep closeWakes s (lost s)
  | lost (hr : s.reader = .receiving) (hl : s.link = .broken ∨ s.link ≠ .up ∧ s.pending = []) :
      ReadStep closeWakes s (lost s)
  | woken (hr : s.reader = .receiving) (hw : closeWakes = true) (hclosed : s.socketClosed = true) :
      ReadStep closeWakes s (lost s)
  | received {chunk : Bytes} {pending : List Bytes} (hr : s.reader = .receiving) (hl : s.link ≠ .broken)
      (hp : s.pending = chunk :: pending) : ReadStep closeWakes s (received s chunk pending)
  | malformed (hr : s.reader = .malformed) : ReadStep closeWakes s { s with running := false, reader := .closing }
  | closed (hr : s.reader = .closing) : ReadStep closeWakes s { s with socketClosed := true, reader := .checking }

theorem readerStep_cases (hst : readerStep closeWakes s = some u) : ReadStep closeWakes s u := by
  unfold readerStep at hst
  split at hst
  · cases hst
  · cases hst
  · cases hst
    exact .checked ‹_›
  · rename_i hr
    cases hst
    by_cases hc : s.socketClosed = true
    · rw [if_pos hc]
      exact .refused hr hc
    · rw [if_neg hc]
      exact .called hr (eq_false_of_ne_true hc)
  · rename_i hr
    split at hst
    · cases hst
      exact .lost hr (.inl ‹_›)
    · rename_i hl hp
      cases hst
      exact .lost hr (.inr ⟨by simp [hl], hp⟩)
    · split at hst <;> cases hst
      rename_i hw
      rw [Bool.and_eq_true] at hw
      exact .woken hr hw.1 hw.2
    · rename_i hl hp
      cases hst
      exact .received hr (by simp [hl]) hp
    · rename_i hl hp
      cases hst
      exact .received hr (by simp [hl]) hp
  · cases hst
    exact .malformed ‹_›
  · cases hst
    exact .closed ‹_›

theorem readerStep_inv (h : Inv s) (hst : readerStep closeWakes s = some u) : Inv u := by
  have hlost (hpc : s.reader ≠ .absent) : Inv (lost s) :=
    h.read hpc (by simp) (fun _ => rfl) (fun _ => rfl) id fun _ => rfl
  cases readerStep_cases hst with
  | checked hr =>
    refine h.read (by simp [hr]) (by split <;> simp) id (fun hpc => ?_) id h.socket
    split at hpc
    · simp at hpc
    · exact eq_false_of_ne_true ‹_›
  | called hr => exact h.read (by simp [hr]) (by simp) id (by simp) id h.socket
  | refused hr => exact hlost (by simp [hr])
  | lost hr => exact hlost (by simp [hr])
  | woken hr => exact hlost (by simp [hr])
  | received hr =>
    refine h.read (by simp [hr]) (by split <;> simp) id (fun hpc => ?_) id h.socket
    split at hpc <;> simp at hpc
  | malformed hr => exact h.read (by simp [hr]) (by simp) (fun _ => rfl) (fun _ => rfl) id fun _ => rfl
  | closed hr => exact h.read (by simp [hr]) (by simp) id (by simp) (fun _ => rfl) fun _ => h.reader (.inr hr)

theorem beatStep_inv {ok : Bool} (h : Inv s) (hst : beatStep s ok = some u) : Inv u := by
  have hmove {pc : BeatPc} (hpc : s.beat ≠ .absent) {running : Bool} (hr : s.running = false → running = false) :
      Inv { s with beat := pc, running } :=
    ⟨fun hb => absurd (h.before hb).2.1 hpc, fun hab => absurd (h.absent hab).1 hpc,
      fun hab => absurd (h.absent hab).1 hpc, fun hs => hr (h.reader hs),
      fun hs => hr (h.socket hs), fun hs => hr (h.cleared hs), h.joining⟩
  unfold beatStep at hst
  cases hb : s.beat with
  | absent | ended =>
    rw [hb] at hst
    cases hst
  | checking | sleeping | testing =>
    rw [hb] at hst
    cases hst
    exact hmove (by simp [hb]) id
  | sending =>
    rw [hb] at hst
    cases hst
    obtain ⟨running, hsend, hr⟩ := sendData_frame s ok
    rw [hsend]
    exact hmove (by simp [hb]) hr

/-- The owner moves when the constructor has started the read thread. -/
theorem Inv.move (h : Inv s) (hpc : s.reader ≠ .absent) {o : OwnerPc} (ho : o.before = false) {beat : BeatPc}
    {running socketClosed : Bool} (hr : s.running = false ∨ o.cleared = true → running = false)
    (hkeep : s.socketClosed = true ∨ o = .joiningReader → socketClosed = true)
    (hsocket : socketClosed = true → running = false) :
    Inv { s with owner := o, beat, running, socketClosed } where
  before hb := by simp [ho] at hb
  absent hab := absurd hab hpc
  failed hab := absurd hab hpc
  reader hs := hr (.inl (h.reader hs))
  socket := hsocket
  cleared hc := hr (.inr hc)
  joining hj := hkeep (.inr hj)

/-- Past the constructor there is a read thread. -/
theorem Inv.started (h : Inv s) (hb : s.owner.before = false) (hw : s.owner ≠ .waiting) : s.reader ≠ .absent := by
  intro hr
  rcases (h.absent hr).2 with hb' | hw'
  · simp [hb] at hb'
  · exact hw hw'

theorem ownerStep_inv {ok : Bool} (h : Inv s) (hst : ownerStep s ok = some u) : Inv u := by
  unfold ownerStep at hst
  cases ho : s.owner with
  | idle | gone =>
    rw [ho] at hst
    cases hst
  | connecting =>
    rw [ho] at hst
    cases hst
    obtain ⟨hr, hb, hs⟩ := h.before (by rw [ho]; rfl)
    have hrun := h.failed hr (.inl ho)
    cases ok with
    | true =>
      exact ⟨fun _ => ⟨hr, hb, hs⟩, fun _ => ⟨hb, .inl rfl⟩, fun _ _ => hrun, h.reader, h.socket,
        by simp [OwnerPc.cleared], by simp⟩
    | false =>
      exact ⟨by simp [OwnerPc.before], fun _ => ⟨hb, .inr rfl⟩, fun _ _ => hrun, h.reader, h.socket,
        by simp [OwnerPc.cleared], by simp⟩
  | accepted =>
    rw [ho] at hst
    cases hst
    obtain ⟨hr, hb, hs⟩ := h.before (by rw [ho]; rfl)
    exact ⟨fun _ => ⟨hr, hb, hs⟩, fun _ => ⟨hb, .inl rfl⟩, by simp, by simp [hr], by simp [hs],
      by simp [OwnerPc.cleared], by simp⟩
  | startingReader =>
    rw [ho] at hst
    cases hst
    obtain ⟨-, -, hs⟩ := h.before (by rw [ho]; rfl)
    exact ⟨by simp [OwnerPc.before], by simp, by simp, by simp, by simp [hs], by simp [OwnerPc.cleared], by simp⟩
  | startingBeat =>
    rw [ho] at hst
    cases hst
    have hpc := h.started (by rw [ho]; rfl) (by simp [ho])
    exact h.move hpc rfl (by simp [OwnerPc.cleared]) (by simp) h.socket
  | waiting =>
    rw [ho] at hst
    dsimp only at hst
    split at hst <;> cases hst
    · rename_i hrun
      have hpc : s.reader ≠ .absent := by
        intro hr
        simp [h.failed hr (.inr ho)] at hrun
      exact h.move hpc rfl (by simp [OwnerPc.cleared]) (by simp) h.socket
    · exact h
  | stopping join =>
    have hpc := h.started (by rw [ho]; rfl) (by simp [ho])
    rw [ho] at hst
    dsimp only at hst
    split at hst <;> cases hst
    refine h.move hpc ?_ ?_ ?_ h.socket <;> cases join <;> simp [OwnerPc.before, OwnerPc.cleared]
  | clearing =>
    have hpc := h.started (by rw [ho]; rfl) (by simp [ho])
    rw [ho] at hst
    cases hst
    exact h.move hpc (by rw [if_neg hpc]; rfl) (fun _ => rfl) (by simp [hpc]) fun _ => rfl
  | closing =>
    have hpc := h.started (by rw [ho]; rfl) (by simp [ho])
    have hrun := h.cleared (by rw [ho]; rfl)
    rw [ho] at hst
    cases hst
    exact h.move hpc rfl (fun _ => hrun) (fun _ => rfl) fun _ => hrun
  | joiningReader =>
    have hpc := h.started (by rw [ho]; rfl) (by simp [ho])
    have hrun := h.cleared (by rw [ho]; rfl)
    rw [ho] at hst
    dsimp only at hst
    split at hst <;> cases hst
    exact h.move hpc rfl (fun _ => hrun) (by simp) h.socket
  | last =>
    have hpc := h.started (by rw [ho]; rfl) (by simp [ho])
    have hrun := h.cleared (by rw [ho]; rfl)
    rw [ho] at hst
    cases hst
    exact h.move hpc rfl (fun _ => hrun) (by simp) h.socket

theorem step_inv (h : Inv s) (hst : step closeWakes s a = some u) : Inv u := by
  cases a with
  | owner ok => exact ownerStep_inv h hst
  | stop | destroy =>
    simp only [step] at hst
    split at hst <;> cases hst
    rename_i ho
    have hpc := h.started (by rw [ho]; rfl) (by simp [ho])
    exact h.move hpc rfl (by simp [OwnerPc.cleared]) (by simp) h.socket
  | reader => exact readerStep_inv h hst
  | beat ok => exact beatStep_inv h hst
  | sendData ok =>
    simp only [step] at hst
    split at hst <;> cases hst
    obtain ⟨running, hsend, hr⟩ := sendData_frame s ok
    rw [hsend]
    exact h.clear hr
  | peerSends | peerCloses =>
    simp only [step] at hst
    split at hst <;> cases hst
    exact ⟨h.before, h.absent, h.failed, h.reader, h.socket, h.cleared, h.joining⟩
  | linkBreaks | sendsFail =>
    cases hst
    exact ⟨h.before, h.absent, h.failed, h.reader, h.socket, h.cleared, h.joining⟩

end KnotLink.Cpp.Waits
