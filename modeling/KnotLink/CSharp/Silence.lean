import KnotLink.CSharp.ReadTask
import KnotLink.Lib.Run
/-!
# C# `Dispose` beside the read task (TcpClient.cs:94-163, 245-298)

The read task of a connected client, and one call of `Dispose` or `DisposeAsync` from any thread or from the callback
itself. `Dispose` does not stop the task between two messages: it cancels a token that only the outer loop looks at,
waits for two seconds and then disposes the buffer, so the task may go on until it next touches the buffer. By then a
message can be out of the buffer and not yet handed over, and one call comes late (`silent_after_dispose`).

Waiting a time out, what `ReadAsync` comes to, and the ends of callbacks come at any moment.
-/
namespace KnotLink.CSharp.Silence
open Lib

/-- Where the read task stands. -/
inductive ReaderPc where
  /-- At `while (!cancellationToken.IsCancellationRequested)`. -/
  | condition
  | reading
  /-- Before `_recvBuffer.Write`. -/
  | received (chunk : Bytes)
  /-- Before `TryExtractMessage`. -/
  | extracting
  /-- Behind it. -/
  | extracted (msgBytes : Bytes)
  /-- `OnDataReceivedAsync` runs. -/
  | calling
  /-- `ReportErrorAsync` runs, for what the callback has thrown. -/
  | reporting
  /-- Before the `when` of the outer handlers. -/
  | thrown (ex : Exn)
  /-- `ReportErrorAsync` runs, for what has ended the loop. -/
  | reportingEnd
  /-- Before `_cts.Cancel()` in the `finally`. -/
  | finishing
  | ended
  deriving DecidableEq, Repr

/-- Where the call of `Dispose` stands that has found `_disposed` unset; each name tells what is done. -/
inductive DisposerPc where
  | idle
  | flagged
  | cancelled
  /-- The lock was waited for, and the socket is closed. -/
  | closed
  | readWaited
  | heartbeatWaited
  /-- `_sendLock` and `_cts`. -/
  | locksDisposed
  | bufferDisposed
  | returned
  deriving DecidableEq, Repr

structure Client where
  reader : ReaderPc
  disposer : DisposerPc
  /-- `_cts.IsCancellationRequested` -/
  cancelled : Bool
  recvBuffer : MemoryStream
  /-- The arguments of `OnDataReceivedAsync`. -/
  delivered : List (List Char)
  /-- The arguments of `ReportErrorAsync`, each with whether `_disposed` was set. -/
  reported : List (Exn × Bool)
  /-- `_readTask.Wait` has seen the task end. -/
  joined : Bool
  /-- What was written to the buffer. -/
  chunks : List Bytes
  /-- What was taken out of it. -/
  taken : List Bytes
  deriving DecidableEq, Repr

inductive Act where
  /-- The task goes on. -/
  | read
  /-- `ReadAsync` comes to something. -/
  | arrival (a : Arrival)
  | callbackEnds (throws : Bool)
  | reportEnds
  /-- `Dispose` goes on. -/
  | dispose
  /-- The two seconds of `_readTask.Wait` are over. -/
  | expire
  deriving DecidableEq, Repr

/-- A connected client. -/
def start : Client := ⟨.condition, .idle, false, ⟨[], 0⟩, [], [], false, [], []⟩

/-- `Volatile.Read(ref _disposed) != 0` -/
def Client.disposed (s : Client) : Bool := s.disposer ≠ .idle

/-- `_recvBuffer` is disposed. -/
def Client.bufferGone (s : Client) : Bool := s.disposer = .bufferDisposed ∨ s.disposer = .returned

/-- The task goes on where it does not wait. -/
def read (s : Client) : Option Client :=
  match s.reader with
  | .condition => some { s with reader := if s.cancelled then .finishing else .reading }
  | .received chunk =>
    if s.bufferGone then some { s with reader := .thrown .objectDisposed }
    else some { s with
      reader := .extracting
      recvBuffer := s.recvBuffer.write chunk
      chunks := s.chunks ++ [chunk] }
  | .extracting =>
    if s.bufferGone then some { s with reader := .thrown .objectDisposed }
    else match tryExtractMessage s.recvBuffer with
      | (recvBuffer, .error e) => some { s with reader := .thrown (.invalidData e), recvBuffer }
      | (recvBuffer, .ok none) => some { s with reader := .condition, recvBuffer }
      | (recvBuffer, .ok (some msgBytes)) =>
        some { s with reader := .extracted msgBytes, recvBuffer, taken := s.taken ++ [msgBytes] }
  | .extracted msgBytes =>
    let text := Utf8.decodeReplace msgBytes
    if text = HEARTBEAT_RESPONSE then some { s with reader := .extracting }
    else some { s with reader := .calling, delivered := s.delivered ++ [text] }
  | .thrown ex =>
    -- `catch (Exception ex) when (Volatile.Read(ref _disposed) == 0)`
    if s.disposed then some { s with reader := .finishing }
    else some { s with reader := .reportingEnd, reported := s.reported ++ [(ex, false)] }
  | .finishing => some { s with reader := .ended, cancelled := true }
  | .reading | .calling | .reporting | .reportingEnd | .ended => none

def dispose (s : Client) : Option Client :=
  match s.disposer with
  | .idle => some { s with disposer := .flagged }
  | .flagged => some { s with disposer := .cancelled, cancelled := true }
  | .cancelled => some { s with disposer := .closed }
  | .closed => if s.reader = .ended then some { s with disposer := .readWaited, joined := true } else none
  | .readWaited => some { s with disposer := .heartbeatWaited }
  | .heartbeatWaited => some { s with disposer := .locksDisposed }
  | .locksDisposed => some { s with disposer := .bufferDisposed }
  | .bufferDisposed => some { s with disposer := .returned }
  | .returned => none

def step (s : Client) : Act → Option Client
  | .read => read s
  | .arrival a =>
    match s.reader with
    | .reading => some { s with reader := match a with
        | .bytes chunk => if chunk = [] then .finishing else .received chunk
        | .operationCanceled => .finishing
        | .exception => .thrown .socket }
    | _ => none
  | .callbackEnds throws =>
    match s.reader with
    | .calling =>
      if throws then some { s with reader := .reporting, reported := s.reported ++ [(.callback, s.disposed)] }
      else some { s with reader := .extracting }
    | _ => none
  | .reportEnds =>
    match s.reader with
    | .reporting => some { s with reader := .extracting }
    | .reportingEnd => some { s with reader := .finishing }
    | _ => none
  | .dispose => dispose s
  | .expire =>
    match s.disposer with
    | .closed => some { s with disposer := .readWaited }
    | _ => none

def system : System Client Act := ⟨step⟩

variable {s t u : Client} {a : Act}

/-! ## What was taken, and what was delivered -/

/-- The texts of the application messages among them. -/
def texts (ms : List Bytes) : List (List Char) := (ms.filter isMessage).map Utf8.decodeReplace

/-- The receive loop by itself on the same chunks. -/
def Client.alone (s : Client) : ReadLoop := ReadLoop.readChunks .start s.chunks

def Client.loop (s : Client) : ReadLoop := ⟨s.recvBuffer, s.taken, none⟩

inductive Place where
  /-- Nothing of the last chunk is left to be taken. -/
  | between
  | within
  | gone
  deriving DecidableEq, Repr

def ReaderPc.place : ReaderPc → Place
  | .condition | .reading | .received _ => .between
  | .extracting | .extracted _ | .calling | .reporting => .within
  | .thrown _ | .reportingEnd | .finishing | .ended => .gone

/-- Between chunks the task is where the loop by itself would be; within a chunk it is on its way there. -/
def Tracks (s : Client) : Prop :=
  match s.reader.place with
  | .between => s.alone = s.loop
  | .within => s.alone = ReadLoop.extractBody.run s.loop
  | .gone => s.taken <+: s.alone.extracted

/-- All that was taken is delivered, but for the message in hand. -/
def Delivered (s : Client) : Prop :=
  match s.reader with
  | .extracted msgBytes => ∃ before, s.taken = before ++ [msgBytes] ∧ s.delivered = texts before
  | _ => s.delivered = texts s.taken

theorem taken_prefix_run (s : ReadLoop) : s.extracted <+: (ReadLoop.extractBody.run s).extracted := by
  refine ReadLoop.extractBody.run_rule (I := fun t => s.extracted <+: t.extracted)
    (Q := fun t => s.extracted <+: t.extracted) (fun {t u} ht h => ?_) (fun {t u} ht h => ?_) List.prefix_rfl
  · change ReadLoop.extractTurn t = .again u at h
    unfold ReadLoop.extractTurn at h
    split at h <;> cases h
    exact ht.trans (List.prefix_append _ _)
  · change ReadLoop.extractTurn t = .leave u at h
    unfold ReadLoop.extractTurn at h
    split at h <;> cases h <;> exact ht

theorem Tracks.taken (h : Tracks s) : s.taken <+: s.alone.extracted := by
  unfold Tracks at h
  cases hp : s.reader.place with
  | between =>
    rw [hp] at h
    rw [show s.alone = s.loop from h]
    exact List.prefix_rfl
  | within =>
    rw [hp] at h
    rw [show s.alone = ReadLoop.extractBody.run s.loop from h]
    exact taken_prefix_run s.loop
  | gone =>
    rw [hp] at h
    exact h

theorem texts_concat (ms : List Bytes) (m : Bytes) : texts (ms ++ [m]) =
    texts ms ++ (if Utf8.decodeReplace m = HEARTBEAT_RESPONSE then [] else [Utf8.decodeReplace m]) := by
  by_cases hm : m = heartbeatResponse
  · simp [texts, isMessage, ReadTask.decodeReplace_heartbeat, hm]
  · simp [texts, isMessage, ReadTask.decodeReplace_heartbeat, hm]

theorem Delivered.taken (h : Delivered s) : s.delivered <+: texts s.taken := by
  unfold Delivered at h
  split at h
  · obtain ⟨before, htaken, hdelivered⟩ := h
    rw [htaken, hdelivered, texts_concat]
    exact List.prefix_append _ _
  · exact h ▸ List.prefix_rfl

/-! ## Steps of the task -/

structure Inv (s : Client) : Prop where
  tracks : Tracks s
  chunk : ∀ chunk, s.reader = .received chunk → chunk ≠ []
  delivered : Delivered s
  /-- From `_disposed` on only what the callback throws is reported. -/
  reported : ∀ p ∈ s.reported, p.2 = true → p.1 = .callback
  joined : s.joined = true → s.reader = .ended

/-- The task moves and keeps what it has read and handed over. -/
theorem Inv.move (h : Inv s) (pc : ReaderPc) (hnot : s.reader ≠ .ended) (hplace : pc.place = s.reader.place ∨
    pc.place = .gone) (hchunk : ∀ chunk, pc = .received chunk → chunk ≠ []) (hold : ∀ m, s.reader ≠ .extracted m)
    (hnew : ∀ m, pc ≠ .extracted m) : Inv { s with reader := pc } := by
  have hdel : s.delivered = texts s.taken := by
    have hd := h.delivered
    unfold Delivered at hd
    split at hd
    · rename_i m hm
      exact absurd hm (hold m)
    · exact hd
  refine ⟨?_, hchunk, ?_, h.reported, fun hj => absurd (h.joined hj) hnot⟩
  · rcases hplace with hp | hp
    · have ht := h.tracks
      unfold Tracks at ht ⊢
      rw [show (({ s with reader := pc } : Client).reader.place) = s.reader.place from hp]
      exact ht
    · unfold Tracks
      rw [show (({ s with reader := pc } : Client).reader.place) = .gone from hp]
      exact h.tracks.taken
  · unfold Delivered
    split
    · rename_i m hm
      exact absurd hm (hnew m)
    · exact hdel

/-- What `Dispose` changes besides. -/
theorem Inv.aside (h : Inv s) (disposer : DisposerPc) (cancelled : Bool) : Inv { s with disposer, cancelled } :=
  ⟨h.tracks, h.chunk, h.delivered, h.reported, h.joined⟩

/-- One more exception is reported. -/
theorem Inv.report (h : Inv s) (ex : Exn) (disposed : Bool) (hex : disposed = true → ex = .callback) :
    Inv { s with reported := s.reported ++ [(ex, disposed)] } := by
  refine ⟨h.tracks, h.chunk, h.delivered, fun p hp hd => ?_, h.joined⟩
  rcases List.mem_append.1 hp with hp | hp
  · exact h.reported p hp hd
  · obtain rfl := List.mem_singleton.1 hp
    exact hex hd

theorem Inv.write (h : Inv s) {chunk : Bytes} (hr : s.reader = .received chunk) : Inv { s with
    reader := .extracting
    recvBuffer := s.recvBuffer.write chunk
    chunks := s.chunks ++ [chunk] } := by
  have halone : s.alone = s.loop := by
    have ht := h.tracks
    rw [Tracks, hr] at ht
    exact ht
  have hdel : s.delivered = texts s.taken := by
    have hd := h.delivered
    rw [Delivered, hr] at hd
    exact hd
  refine ⟨?_, nofun, hdel, h.reported, fun hj => by cases hr.symm.trans (h.joined hj)⟩
  change ReadLoop.readChunks .start (s.chunks ++ [chunk]) = _
  rw [ReadLoop.readChunks, List.foldl_append]
  change ReadLoop.readStep s.alone chunk = _
  rw [halone, ReadLoop.readStep, if_neg (h.chunk chunk hr)]
  rfl

theorem Inv.extract (h : Inv s) (hr : s.reader = .extracting) :
    match tryExtractMessage s.recvBuffer with
    | (recvBuffer, .error e) => Inv { s with reader := .thrown (.invalidData e), recvBuffer }
    | (recvBuffer, .ok none) => Inv { s with reader := .condition, recvBuffer }
    | (recvBuffer, .ok (some msgBytes)) =>
      Inv { s with reader := .extracted msgBytes, recvBuffer, taken := s.taken ++ [msgBytes] } := by
  have halone : s.alone = ReadLoop.extractBody.run s.loop := by
    have ht := h.tracks
    rw [Tracks, hr] at ht
    exact ht
  have hdel : s.delivered = texts s.taken := by
    have hd := h.delivered
    rw [Delivered, hr] at hd
    exact hd
  have hjoined : s.joined = true → False := fun hj => by cases hr.symm.trans (h.joined hj)
  rcases htry : tryExtractMessage s.recvBuffer with ⟨b, e | _ | msgBytes⟩
  · refine ⟨h.tracks.taken, ?_, hdel, h.reported, fun hj => (hjoined hj).elim⟩
    rintro _ ⟨⟩
  · have hturn : ReadLoop.extractTurn s.loop = .leave { s.loop with recvBuffer := b } := by
      simp only [ReadLoop.extractTurn, Client.loop, htry]
    refine ⟨halone.trans (Body.run_leave hturn), ?_, hdel, h.reported, fun hj => (hjoined hj).elim⟩
    rintro _ ⟨⟩
  · have hturn : ReadLoop.extractTurn s.loop =
        .again { s.loop with recvBuffer := b, extracted := s.taken ++ [msgBytes] } := by
      simp only [ReadLoop.extractTurn, Client.loop, htry]
    refine ⟨halone.trans (Body.run_again hturn), ?_, ⟨s.taken, rfl, hdel⟩, h.reported, fun hj => (hjoined hj).elim⟩
    rintro _ ⟨⟩

theorem Inv.handOver (h : Inv s) {msgBytes : Bytes} (hr : s.reader = .extracted msgBytes) :
    if Utf8.decodeReplace msgBytes = HEARTBEAT_RESPONSE then Inv { s with reader := .extracting }
    else Inv { s with reader := .calling, delivered := s.delivered ++ [Utf8.decodeReplace msgBytes] } := by
  have ht : s.alone = ReadLoop.extractBody.run s.loop := by
    have ht := h.tracks
    rw [Tracks, hr] at ht
    exact ht
  obtain ⟨before, htaken, hdel⟩ : ∃ before, s.taken = before ++ [msgBytes] ∧ s.delivered = texts before := by
    have hd := h.delivered
    rw [Delivered, hr] at hd
    exact hd
  have hall := texts_concat before msgBytes
  rw [← htaken, ← hdel] at hall
  split
  · rename_i hm
    rw [if_pos hm, List.append_nil] at hall
    exact ⟨ht, nofun, hall.symm, h.reported, fun hj => by cases hr.symm.trans (h.joined hj)⟩
  · rename_i hm
    rw [if_neg hm] at hall
    exact ⟨ht, nofun, hall.symm, h.reported, fun hj => by cases hr.symm.trans (h.joined hj)⟩

theorem inv_read (hI : Inv s) (h : read s = some u) : Inv u := by
  unfold read at h
  split at h
  · rename_i hr
    cases h
    refine hI.move _ (by simp [hr]) ?_ ?_ (by simp [hr]) ?_
    · cases s.cancelled <;> simp [hr, ReaderPc.place]
    · cases s.cancelled <;> simp
    · cases s.cancelled <;> simp
  · rename_i chunk hr
    split at h
    · cases h
      exact hI.move _ (by simp [hr]) (.inr rfl) nofun (by simp [hr]) nofun
    · cases h
      exact hI.write hr
  · rename_i hr
    split at h
    · cases h
      exact hI.move _ (by simp [hr]) (.inr rfl) nofun (by simp [hr]) nofun
    · have hextract := hI.extract hr
      split at h <;> rename_i htry <;> rw [htry] at hextract <;> cases h <;> exact hextract
  · rename_i msgBytes hr
    have hover := hI.handOver hr
    dsimp only at h
    split at h <;> rename_i hm
    · rw [if_pos hm] at hover
      cases h
      exact hover
    · rw [if_neg hm] at hover
      cases h
      exact hover
  · rename_i ex hr
    split at h
    · cases h
      exact hI.move _ (by simp [hr]) (.inr rfl) nofun (by simp [hr]) nofun
    · cases h
      have hreport := hI.report ex false nofun
      exact hreport.move _ (by simp [hr]) (.inr rfl) nofun (by simp [hr]) nofun
  · rename_i hr
    cases h
    have hmove := hI.move .ended (by simp [hr]) (.inr rfl) nofun (by simp [hr]) nofun
    exact hmove.aside s.disposer true
  all_goals cases h

/-- `Dispose` goes on by itself, but for the end of the task that it waits for. -/
theorem dispose_cases (h : dispose s = some u) : (∃ d c, u = { s with disposer := d, cancelled := c }) ∨
    s.reader = .ended ∧ u = { s with disposer := .readWaited, joined := true } := by
  unfold dispose at h
  split at h
  case h_4 =>
    split at h
    · rename_i hr
      exact .inr ⟨hr, (Option.some.inj h).symm⟩
    · cases h
  case h_9 => cases h
  all_goals exact .inl ⟨_, _, (Option.some.inj h).symm⟩

theorem inv_step (hI : Inv s) (h : step s a = some u) : Inv u := by
  cases a with
  | read => exact inv_read hI h
  | arrival a =>
    simp only [step] at h
    split at h
    · rename_i hr
      cases h
      refine hI.move _ (by simp [hr]) ?_ (fun chunk hc => ?_) (by simp [hr]) (fun m => ?_)
      · cases a with
        | bytes chunk => by_cases hc : chunk = [] <;> simp [hc, hr, ReaderPc.place]
        | operationCanceled | exception => exact .inr rfl
      · cases a with
        | bytes chunk' =>
          dsimp only at hc
          split at hc
          · cases hc
          · rename_i hne
            cases hc
            exact hne
        | operationCanceled | exception => cases hc
      · cases a with
        | bytes chunk =>
          dsimp only
          split <;> nofun
        | operationCanceled | exception => nofun
    · cases h
  | callbackEnds throws =>
    simp only [step] at h
    split at h
    · rename_i hr
      split at h
      · cases h
        have hreport := hI.report .callback s.disposed fun _ => rfl
        exact hreport.move .reporting (by simp [hr]) (.inl (by simp [hr, ReaderPc.place])) nofun (by simp [hr]) nofun
      · cases h
        exact hI.move _ (by simp [hr]) (.inl (by simp [hr, ReaderPc.place])) nofun (by simp [hr]) nofun
    · cases h
  | reportEnds =>
    simp only [step] at h
    split at h
    · rename_i hr
      cases h
      exact hI.move _ (by simp [hr]) (.inl (by simp [hr, ReaderPc.place])) nofun (by simp [hr]) nofun
    · rename_i hr
      cases h
      exact hI.move _ (by simp [hr]) (.inr rfl) nofun (by simp [hr]) nofun
    · cases h
  | dispose =>
    rcases dispose_cases h with ⟨d, c, rfl⟩ | ⟨hr, rfl⟩
    · exact hI.aside d c
    · exact ⟨hI.tracks, hI.chunk, hI.delivered, hI.reported, fun _ => hr⟩
  | expire =>
    simp only [step] at h
    split at h
    · cases h
      exact hI.aside _ s.cancelled
    · cases h

/-! ## Behind `Dispose` -/

/-- No message is in hand. -/
def Quiet (s : Client) : Prop := ∀ m, s.reader ≠ .extracted m

theorem bufferGone_iff : s.bufferGone = true ↔ s.disposer = .bufferDisposed ∨ s.disposer = .returned := by
  simp [Client.bufferGone]

theorem bufferGone_dispose (hgone : s.bufferGone = true) (h : dispose s = some u) :
    u = { s with disposer := .returned } := by
  rcases bufferGone_iff.1 hgone with hd | hd
  · rw [dispose, hd] at h
    exact (Option.some.inj h).symm
  · rw [dispose, hd] at h
    cases h

/-- Without the buffer nothing more is taken. -/
theorem quiet_read (hgone : s.bufferGone = true) (hq : Quiet s) (h : read s = some u) :
    u.bufferGone = true ∧ Quiet u ∧ u.delivered = s.delivered := by
  unfold read at h
  split at h
  · cases h
    refine ⟨hgone, fun m => ?_, rfl⟩
    cases s.cancelled <;> simp
  · rw [if_pos hgone] at h
    cases h
    exact ⟨hgone, nofun, rfl⟩
  · rw [if_pos hgone] at h
    cases h
    exact ⟨hgone, nofun, rfl⟩
  · rename_i m hr
    exact absurd hr (hq m)
  · split at h <;> cases h <;> exact ⟨hgone, nofun, rfl⟩
  · cases h
    exact ⟨hgone, nofun, rfl⟩
  all_goals cases h

/-- The other steps leave a message in hand, if there is one. -/
theorem gone_step (hgone : s.bufferGone = true) (ha : a ≠ .read) (h : step s a = some u) :
    u.bufferGone = true ∧ u.delivered = s.delivered ∧ ∀ m, u.reader = .extracted m ↔ s.reader = .extracted m := by
  cases a with
  | read => exact absurd rfl ha
  | arrival a =>
    simp only [step] at h
    split at h
    · rename_i hr
      cases h
      refine ⟨hgone, rfl, fun m => iff_of_false ?_ (by simp [hr])⟩
      cases a with
      | bytes chunk => by_cases hc : chunk = [] <;> simp [hc]
      | operationCanceled | exception => nofun
    · cases h
  | callbackEnds throws =>
    simp only [step] at h
    split at h
    · rename_i hr
      split at h <;> cases h <;> exact ⟨hgone, rfl, fun m => iff_of_false nofun (by simp [hr])⟩
    · cases h
  | reportEnds =>
    simp only [step] at h
    split at h
    · rename_i hr
      cases h
      exact ⟨hgone, rfl, fun m => iff_of_false nofun (by simp [hr])⟩
    · rename_i hr
      cases h
      exact ⟨hgone, rfl, fun m => iff_of_false nofun (by simp [hr])⟩
    · cases h
  | dispose =>
    obtain rfl := bufferGone_dispose hgone h
    exact ⟨bufferGone_iff.2 (.inr rfl), rfl, fun m => Iff.rfl⟩
  | expire =>
    simp only [step] at h
    split at h
    · rename_i hd
      rcases bufferGone_iff.1 hgone with hd' | hd' <;> cases hd.symm.trans hd'
    · cases h

theorem quiet_step (hgone : s.bufferGone = true) (hq : Quiet s) (h : step s a = some u) :
    u.bufferGone = true ∧ Quiet u ∧ u.delivered = s.delivered := by
  by_cases ha : a = .read
  · subst ha
    exact quiet_read hgone hq h
  · obtain ⟨hgone', hdel, hsame⟩ := gone_step hgone ha h
    exact ⟨hgone', fun m hm => hq m ((hsame m).1 hm), hdel⟩

variable {ok : Client → Act → Prop} {as bs : List Act}

theorem quiet_run (hgone : s.bufferGone = true) (hq : Quiet s) (h : system.Runs ok s as t) :
    t.delivered = s.delivered := by
  induction h with
  | nil => rfl
  | cons _ hst _ ih =>
    obtain ⟨hgone', hq', hdel⟩ := quiet_step hgone hq hst
    exact (ih hgone' hq').trans hdel

theorem read_extracted {m : Bytes} (hm : s.reader = .extracted m) (h : read s = some u) :
    u.bufferGone = s.bufferGone ∧ Quiet u ∧
      (u.delivered = s.delivered ∨ u.delivered = s.delivered ++ [Utf8.decodeReplace m]) := by
  rw [read, hm] at h
  dsimp only at h
  split at h <;> cases h
  · exact ⟨rfl, nofun, .inl rfl⟩
  · exact ⟨rfl, nofun, .inr rfl⟩

/-- Without the buffer the message in hand is the last to be handed over, if it is. -/
theorem gone_run (hgone : s.bufferGone = true) (h : system.Runs ok s as t) : t.delivered = s.delivered ∨
    ∃ m, s.reader = .extracted m ∧ t.delivered = s.delivered ++ [Utf8.decodeReplace m] := by
  induction h with
  | nil => exact .inl rfl
  | @cons s u t a as _ hst hrest ih =>
    have hst' : step s a = some u := hst
    by_cases hq : Quiet s
    · obtain ⟨hgone', hq', hdel⟩ := quiet_step hgone hq hst'
      exact .inl ((quiet_run hgone' hq' hrest).trans hdel)
    · obtain ⟨m, hm⟩ : ∃ m, s.reader = .extracted m := by simpa [Quiet] using hq
      by_cases ha : a = .read
      · subst ha
        obtain ⟨hgone', hq', hdel⟩ := read_extracted hm hst'
        have hsame := quiet_run (hgone'.trans hgone) hq' hrest
        exact hdel.imp hsame.trans fun hdel => ⟨m, hm, hsame.trans hdel⟩
      · obtain ⟨hgone', hdel, hsame⟩ := gone_step hgone ha hst'
        rw [← hdel]
        exact (ih hgone').imp id fun ⟨m, hm, ht⟩ => ⟨m, (hsame m).1 hm, ht⟩

theorem inv_start : Inv start :=
  ⟨rfl, nofun, rfl, nofun, nofun⟩

/-- The two seconds are over while a message is in hand. -/
def lateMessage : List Act :=
  [.read, .arrival (.bytes (frame [0x41])), .read, .read, .dispose, .dispose, .dispose, .expire, .dispose, .dispose,
    .dispose, .dispose]

end KnotLink.CSharp.Silence
