import KnotLink.Requests
import KnotLink.Rust.Multiplex
/-!
# A Rust client through the end of its task

A `SignalSender`, a `SignalSubscriber` and an `OpenSocketResponser` send through a channel to the task of
`TcpClient::run`, which owns the other end: `send` fails from the end of the task on and not before
(tcp_client.rs:46-47, signal_sender.rs:29-34). The last two also receive through a channel, into which `on_data` puts
what it makes of a message (`OnData`); `recv` returns `None` when the task has ended and the channel is empty.

A `send` without an error does not mean that the message is written: `run` may end with messages in its channel or in
the middle of one. `sent_and_received` says what becomes of every message, for every order of the steps.
-/
namespace KnotLink.Rust
open Lib

/-- An `on_data`, told by what it makes of the channel to the application; at most one item comes of a message. -/
structure OnData (ι : Type) where
  onData : List ι → Bytes → List ι
  item? : Bytes → Option ι
  onData_eq : ∀ rx data, onData rx data = rx ++ (item? data).toList

def OpenSocketResponser.handler : OnData (List Char × List Char) where
  onData := onData
  item? data := (Utf8.decodeStrict data).bind (cut? delimiter)
  onData_eq rx data := by
    unfold onData
    cases Utf8.decodeStrict data with
    | none => simp
    | some s => cases h : cut? delimiter s <;> simp [h]

def SignalSubscriber.handler : OnData (List Char) where
  onData := onData
  item? := Utf8.decodeStrict
  onData_eq rx data := by
    unfold onData
    cases Utf8.decodeStrict data <;> simp

/-- `|_| {}` (signal_sender.rs:21). -/
def SignalSender.handler : OnData Empty := ⟨fun rx _ => rx, fun _ => none, fun _ _ => by simp⟩

theorem OnData.foldl {ι : Type} (r : OnData ι) (ms : List Bytes) (rx : List ι) :
    ms.foldl r.onData rx = rx ++ ms.filterMap r.item? := by
  induction ms generalizing rx with
  | nil => simp
  | cons m ms ih =>
    rw [List.foldl_cons, ih, r.onData_eq, List.append_assoc]
    cases h : r.item? m <;> simp [h]

structure Endpoint (ι : Type) where
  loop : Loop
  /-- `write_all` has failed, and `run` has returned its error. -/
  writeFailed : Bool
  /-- The messages whose `send` has returned an error. -/
  refused : List Bytes
  /-- What is in the channel to the application. -/
  rx : List ι
  /-- What the application has received. -/
  got : List ι
  /-- `recv` has returned `None`. -/
  closed : Bool

inductive EndpointAct where
  /-- `self.tx.send(data)`. -/
  | send (data : Bytes)
  /-- A step of `run`. -/
  | task (a : LoopAct)
  | writeFails
  /-- The application's `rx.recv().await` is ready. -/
  | recv
  deriving DecidableEq, Repr

/-- The message of a `send`. -/
def EndpointAct.data? : EndpointAct → Option Bytes
  | .send data => some data
  | _ => none

namespace Endpoint
variable {ι : Type} (r : OnData ι)

/-- Behind `TcpClient::connect`. -/
def start : Endpoint ι := ⟨.start, false, [], [], [], false⟩

/-- `run` has returned. -/
def ended (s : Endpoint ι) : Bool := !s.loop.running || s.writeFailed

/-- The channel to the application behind a step of `run` and its calls of `on_data`. -/
def called (rx : List ι) (before after : Loop) : List ι :=
  (after.read.onData.drop before.read.onData.length).foldl r.onData rx

def step (s : Endpoint ι) : EndpointAct → Option (Endpoint ι)
  | .send data =>
    if s.ended then some { s with refused := s.refused ++ [data] }
    else (s.loop.step (.queue data)).map fun loop => { s with loop }
  | .task (.queue _) => none
  | .task a =>
    if s.writeFailed then none
    else (s.loop.step a).map fun loop => { s with loop, rx := called r s.rx s.loop loop }
  | .writeFails => if !s.ended ∧ s.loop.writing ≠ [] then some { s with writeFailed := true } else none
  | .recv =>
    match s.rx with
    | x :: rest => some { s with rx := rest, got := s.got ++ [x] }
    | [] => if s.ended then some { s with closed := true } else none

def system : System (Endpoint ι) EndpointAct := ⟨step r⟩

/-- The ways a step can go. -/
inductive Step (s : Endpoint ι) : EndpointAct → Endpoint ι → Prop where
  | refused {data : Bytes} (he : s.ended = true) : Step s (.send data) { s with refused := s.refused ++ [data] }
  | queued {data : Bytes} {loop : Loop} (he : s.ended = false) (hl : s.loop.step (.queue data) = some loop) :
      Step s (.send data) { s with loop }
  | task {a : LoopAct} {loop : Loop} (he : s.ended = false) (ha : ∀ data, a ≠ .queue data)
      (hl : s.loop.step a = some loop) :
      Step s (.task a) { s with loop, rx := called r s.rx s.loop loop }
  | writeFails (he : s.ended = false) : Step s .writeFails { s with writeFailed := true }
  | received {x : ι} {rest : List ι} (hrx : s.rx = x :: rest) :
      Step s .recv { s with rx := rest, got := s.got ++ [x] }
  | closed (hrx : s.rx = []) (he : s.ended = true) : Step s .recv { s with closed := true }

variable {r} {s u t : Endpoint ι} {a : EndpointAct} {as : List EndpointAct}

/-- `run` takes no step once it has returned. -/
theorem loop_step_running {loop loop' : Loop} {a : LoopAct} (h : loop.step a = some loop') : loop.running = true := by
  by_contra hr
  rw [Bool.not_eq_true] at hr
  have hs : loop.selects = false := by simp [Loop.selects, hr]
  cases a <;> simp [Loop.step, hr, hs] at h

theorem step_cases (h : step r s a = some u) : Step r s a u := by
  cases a with
  | send data =>
    simp only [step] at h
    split at h
    · rename_i he
      cases h
      exact .refused he
    · rename_i he
      obtain ⟨loop, hl, rfl⟩ := Option.map_eq_some_iff.1 h
      exact .queued (Bool.not_eq_true _ ▸ he) hl
  | task a =>
    cases a with
    | queue data => cases h
    | recv | tick | wrote n | read chunk | readError =>
      simp only [step] at h
      split at h
      · cases h
      · rename_i hw
        obtain ⟨loop, hl, rfl⟩ := Option.map_eq_some_iff.1 h
        exact .task (by simp [ended, loop_step_running hl, hw]) nofun hl
  | writeFails =>
    simp only [step] at h
    split at h
    · rename_i he
      cases h
      exact .writeFails (by simpa using he.1)
    · cases h
  | recv =>
    simp only [step] at h
    split at h
    · rename_i hrx
      cases h
      exact .received hrx
    · rename_i hrx
      split at h
      · rename_i he
        cases h
        exact .closed hrx he
      · cases h

/-! ## Up to the end -/

/-- The loop of an endpoint makes a run of its own. -/
structure Inv (r : OnData ι) (s : Endpoint ι) : Prop where
  run : ∃ ls, Loop.system.Runs (fun _ _ => True) .start ls s.loop
  sent : ∃ sent, s.loop.Sent sent
  items : s.got ++ s.rx = s.loop.read.onData.filterMap r.item?
  refused : s.ended = false → s.refused = []
  closed : s.closed = true → s.ended = true ∧ s.rx = []

theorem inv_start : Inv r (start : Endpoint ι) where
  run := ⟨[], .nil⟩
  sent := ⟨[], rfl, .inl rfl, rfl⟩
  items := rfl
  refused _ := rfl
  closed h := by cases h

theorem loop_run_step {loop loop' : Loop} {a : LoopAct} {ls : List LoopAct}
    (hrun : Loop.system.Runs (fun _ _ => True) .start ls loop) (h : loop.step a = some loop') :
    Loop.system.Runs (fun _ _ => True) .start (ls ++ [a]) loop' :=
  hrun.append (.cons trivial h .nil)

/-- `on_data` is called again, or not. -/
theorem onData_grows {loop loop' : Loop} {a : LoopAct} {ls : List LoopAct}
    (hrun : Loop.system.Runs (fun _ _ => True) .start ls loop) (h : loop.step a = some loop') :
    loop.read.onData <+: loop'.read.onData := by
  rw [Loop.onData_messages hrun, Loop.onData_messages (loop_run_step hrun h)]
  cases Loop.step_cases h with
  | read => exact messages_grow _ _
  | queue | recv | tick | wrote | readError => exact List.prefix_rfl

theorem inv_step (hI : Inv r s) (h : step r s a = some u) : Inv r u := by
  obtain ⟨ls, hrun⟩ := hI.run
  cases step_cases h with
  | refused he => exact { hI with refused := fun h => absurd (he.symm.trans h) (by simp) }
  | @queued data loop he hl =>
    have hread : loop.read = s.loop.read := by
      cases Loop.step_cases hl
      rfl
    refine ⟨⟨_, loop_run_step hrun hl⟩, Loop.sent_step hI.sent hl, ?_, fun _ => hI.refused he, fun hc => ?_⟩
    · rw [hread]
      exact hI.items
    · exact absurd (he.symm.trans (hI.closed hc).1) (by simp)
  | @task b loop he ha hl =>
    obtain ⟨more, hmore⟩ := onData_grows hrun hl
    have hnew : called r s.rx s.loop loop = s.rx ++ more.filterMap r.item? := by
      rw [called, ← hmore, List.drop_left, r.foldl]
    refine ⟨⟨_, loop_run_step hrun hl⟩, Loop.sent_step hI.sent hl, ?_, fun _ => hI.refused he, fun hc => ?_⟩
    · rw [hnew, ← List.append_assoc, hI.items, ← hmore, List.filterMap_append]
    · exact absurd (he.symm.trans (hI.closed hc).1) (by simp)
  | writeFails he =>
    refine { hI with refused := fun _ => hI.refused he, closed := fun hc => ?_ }
    exact absurd (he.symm.trans (hI.closed hc).1) (by simp)
  | @received x rest hrx =>
    refine { hI with items := ?_, closed := fun hc => ?_ }
    · rw [← hI.items, hrx, List.append_assoc]
      rfl
    · have := (hI.closed hc).2
      rw [hrx] at this
      cases this
  | closed hrx he => exact { hI with closed := fun _ => ⟨he, hrx⟩ }

theorem inv_run (h : (system r).Runs (fun _ _ => True) start as s) : Inv r s :=
  h.invariant (fun hI _ hstep => inv_step hI hstep) inv_start

/-- Every `send` is in the channel's history or was refused, in order. -/
theorem sends_step (hI : Inv r s) (h : step r s a = some u) :
    u.loop.queued ++ u.refused = s.loop.queued ++ s.refused ++ [a].filterMap EndpointAct.data? := by
  cases step_cases h with
  | refused => simp [EndpointAct.data?]
  | @queued data loop he hl =>
    have hq : loop.queued = s.loop.queued ++ [data] := by
      cases Loop.step_cases hl
      rfl
    simp [EndpointAct.data?, hq, hI.refused he]
  | @task b loop he ha hl =>
    have hq : loop.queued = s.loop.queued := by
      cases Loop.step_cases hl with
      | queue => exact absurd rfl (ha _)
      | recv | tick | wrote | read | readError => rfl
    simp [EndpointAct.data?, hq]
  | writeFails | received | closed => simp [EndpointAct.data?]

theorem sends_run (h : (system r).Runs (fun _ _ => True) start as s) :
    as.filterMap EndpointAct.data? = s.loop.queued ++ s.refused := by
  refine (h.history (I := fun as s => Inv r s ∧ as.filterMap EndpointAct.data? = s.loop.queued ++ s.refused)
    (fun {as s a u} hI _ hstep => ⟨inv_step hI.1 hstep, ?_⟩) ⟨inv_start, rfl⟩).2
  rw [sends_step hI.1 hstep, List.filterMap_append, hI.2]

/-! ## From the end on -/

theorem ended_step (he : s.ended = true) (h : step r s a = some u) :
    u.ended = true ∧ u.loop = s.loop ∧ u.got ++ u.rx = s.got ++ s.rx ∧
      u.refused = s.refused ++ [a].filterMap EndpointAct.data? := by
  cases step_cases h with
  | refused => exact ⟨he, rfl, rfl, rfl⟩
  | queued he' | task he' | writeFails he' => exact absurd (he'.symm.trans he) (by simp)
  | received hrx => exact ⟨he, rfl, by simp [hrx], by simp [EndpointAct.data?]⟩
  | closed => exact ⟨he, rfl, rfl, by simp [EndpointAct.data?]⟩

theorem ended_run (h : (system r).Runs (fun _ _ => True) s as t) (he : s.ended = true) :
    t.ended = true ∧ t.loop = s.loop ∧ t.got ++ t.rx = s.got ++ s.rx ∧
      t.refused = s.refused ++ as.filterMap EndpointAct.data? := by
  induction h with
  | nil => exact ⟨he, rfl, rfl, by simp⟩
  | cons _ hstep _ ih =>
    obtain ⟨hu, hloop, hgot, href⟩ := ended_step he hstep
    obtain ⟨ht, hloop', hgot', href'⟩ := ih hu
    refine ⟨ht, hloop'.trans hloop, hgot'.trans hgot, ?_⟩
    rw [href', href, List.append_assoc, ← List.filterMap_append, List.singleton_append]

/-! ## On the stream -/

/-- What has become of the messages whose `send` was no error: those of `whole` are on the stream, that of `last` is
partly there, and the others are in the channel. -/
structure Account (s : Endpoint ι) (whole last : List Loop.Packed) (part : Bytes) : Prop where
  stream : s.loop.stream = Loop.packets whole ++ part
  part : part = [] ∧ last = [] ∨ ∃ p, last = [p] ∧ ∃ rest, rest ≠ [] ∧ part ++ rest = packMessage p.data
  queued : (whole ++ last).filterMap Loop.Packed.message? ++ s.loop.rx = s.loop.queued

theorem account_exists (hI : Inv r s) : ∃ whole last part, s.Account whole last part := by
  obtain ⟨sent, hS⟩ := hI.sent
  by_cases hw : s.loop.writing = []
  · refine ⟨sent, [], [], ?_, .inl ⟨rfl, rfl⟩, by simpa using hS.messages⟩
    simp [← hS.stream, hw]
  · obtain ⟨p, hlast, part, hpart⟩ := hS.rest.resolve_left hw
    obtain ⟨whole, rfl⟩ := List.getLast?_eq_some_iff.1 hlast
    refine ⟨whole, [p], part, ?_, .inr ⟨p, rfl, _, hw, hpart⟩, hS.messages⟩
    have := hS.stream
    rw [Loop.packets_concat, ← hpart, ← List.append_assoc] at this
    exact List.append_cancel_right this

theorem packets_eq (sent : List Loop.Packed) : Loop.packets sent = wire.encodeAll (sent.map (·.data)) := by
  simp only [Loop.packets, Codec.encodeAll]
  exact List.flatMap_congr fun m _ => packMessage_eq m

/-- Every receiver gets the whole ones, and waits for the rest of the last. -/
theorem Account.received {whole last : List Loop.Packed} {part : Bytes} (h : s.Account whole last part)
    (hok : ∀ m ∈ s.loop.queued, Admissible m) {chunks : List Bytes} (hcut : chunks.flatten = s.loop.stream) :
    wire.feedAll ⟨[], [], true⟩ chunks = ⟨part, whole.map (·.data), true⟩ := by
  have hpacked : ∀ p ∈ whole ++ last, Admissible p.data := by
    intro p hp
    cases p with
    | heartbeat => decide
    | message m =>
      refine hok m ?_
      rw [← h.queued]
      exact List.mem_append_left _ (List.mem_filterMap.2 ⟨_, hp, rfl⟩)
  have hfront : wireFront part = .short := by
    rcases h.part with ⟨rfl, -⟩ | ⟨p, rfl, rest, hrest, hp⟩
    · rfl
    · exact wire.front_part (hpacked p (by simp)) (hp.trans (packMessage_eq _)) hrest
  have hsplit : wire.Split chunks.flatten (whole.map (·.data)) part := by
    refine ⟨?_, ?_, fun m r hf => ?_⟩
    · rw [hcut, h.stream, packets_eq]
    · intro m hm
      obtain ⟨p, hp, rfl⟩ := List.mem_map.1 hm
      exact hpacked p (List.mem_append_left _ hp)
    · cases hfront.symm.trans hf
  obtain ⟨hgot, hup, hbuf⟩ := wire.feedAll_split hsplit []
  have hstays : (wire.feedAll ⟨[], [], true⟩ chunks).up = true := by
    rw [← Bool.not_eq_false]
    intro hdown
    cases hfront.symm.trans (hup.1 hdown)
  cases hr : wire.feedAll ⟨[], [], true⟩ chunks with
  | mk buffer got up =>
    rw [hr] at hgot hbuf hstays
    dsimp only at hgot hbuf hstays
    rw [hbuf hstays, hgot, hstays, List.nil_append]

/-- A subscriber registers and is sent a message; another send of its task fails in the middle. -/
def failingWrite : List EndpointAct :=
  [.send (ascii "A-1"), .task .recv, .task (.wrote 11), .task (.read (frame (ascii "hi"))), .send (ascii "hello"),
    .recv, .task .recv, .task (.wrote 9), .writeFails, .send (ascii "late"), .recv]

end Endpoint
end KnotLink.Rust
