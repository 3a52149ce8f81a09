import KnotLink.Frame
import KnotLink.Lib.Run
import KnotLink.Lib.Semaphore
/-!
# C# `Dispose` and the callers of `SendAsync` (TcpClient.cs:62-91, 252-298)

Any number of calls of `SendAsync` wait for `_sendLock`, hold it and release it in their `finally`, while one call of
`Dispose` or `DisposeAsync` sets `_disposed`, waits for the lock for two seconds, closes the socket, waits for the
tasks and disposes the lock. A step is one operation on the lock or on `_disposed`, or the writing of a call. A call
that is handed the lock after `_disposed` was set throws and hands it to the next one, so the queue empties by itself;
but nothing makes `Dispose` wait for that (TcpClient.cs:273).

Waiting a time out, the end of a write and the tasks' ends come at any moment.
-/
namespace KnotLink.CSharp.Disposal
open Lib

/-- How a call of `SendAsync` ends. -/
inductive Outcome where
  | sent
  /-- `ObjectDisposedException`, from a test of `_disposed` or from `WaitAsync`. -/
  | objectDisposed
  /-- `ArgumentException`. -/
  | tooLarge
  /-- `OperationCanceledException` out of `WaitAsync`. -/
  | cancelled
  /-- Any exception of a write. -/
  | writeFailed
  /-- The exception of `Release` in the `finally`. -/
  | releaseThrew
  deriving DecidableEq, Repr

/-- Where a call of `SendAsync` stands. -/
inductive CallPc where
  /-- Before `WaitAsync`. -/
  | entered
  | queued
  /-- It holds the lock and is before its second test of `_disposed`. -/
  | acquired
  | writing
  /-- In the `finally`. -/
  | releasing (outcome : Outcome)
  | done (outcome : Outcome)
  deriving DecidableEq, Repr

/-- Between `WaitAsync` and `Release`. -/
@[simp] def CallPc.holds : CallPc → Bool
  | acquired | writing | releasing _ => true
  | entered | queued | done _ => false

@[simp] def CallPc.outcome : CallPc → Option Outcome
  | releasing outcome | done outcome => some outcome
  | entered | queued | acquired | writing => none

/-- Where the call of `Dispose` or `DisposeAsync` stands that has found `_disposed` unset. -/
inductive DisposerPc where
  | idle
  /-- Before `Wait`, or `WaitAsync` in `DisposeAsync`. -/
  | entered (sync : Bool)
  | blocked
  | queued
  /-- Before `CloseSocket`; `taken` is `sendLockTaken`. -/
  | closing (taken : Bool)
  | releasing
  /-- It waits for the tasks. -/
  | joining
  /-- Behind `_sendLock.Dispose()`. -/
  | lockDisposed
  | returned
  /-- An exception of the lock has left it. -/
  | threw
  deriving DecidableEq, Repr

@[simp] def DisposerPc.holds : DisposerPc → Bool
  | closing true | releasing => true
  | _ => false

inductive Waiter where
  | call (k : Nat)
  | disposer
  deriving DecidableEq, Repr

structure Client where
  sendLock : Semaphore Waiter
  disposed : Bool
  calls : List CallPc
  disposer : DisposerPc
  deriving DecidableEq, Repr

inductive Act where
  /-- The tests in front of the lock. -/
  | sendAsync (payload : Bytes)
  | waitAsync (k : Nat)
  /-- The call's token is cancelled at `WaitAsync`. -/
  | cancel (k : Nat)
  /-- `if (Volatile.Read(ref _disposed) != 0)` behind the lock. -/
  | check (k : Nat)
  /-- The writes are over. -/
  | write (k : Nat) (ok : Bool)
  | release (k : Nat)
  | dispose (sync : Bool)
  | wait
  /-- A `Wait` that has blocked finds the lock free. -/
  | take
  /-- The two seconds are over. -/
  | expire
  | closeSocket
  | disposerRelease
  | disposeLock
  | returns
  deriving DecidableEq, Repr

/-- A connected client. -/
def start : Client := ⟨.new Waiter 1, false, [], .idle⟩

/-- A waiter is handed the lock. -/
def wake (s : Client) : Waiter → Client
  | .call k => { s with calls := s.calls.set k .acquired }
  | .disposer => { s with disposer := .closing true }

/-- `_sendLock.WaitAsync` of call `k`. -/
def waitAsync (s : Client) (k : Nat) : Option Client :=
  match s.sendLock.waitAsync (.call k) with
  | .threw => some { s with calls := s.calls.set k (.done .objectDisposed) }
  | .taken sendLock => some { s with sendLock, calls := s.calls.set k .acquired }
  | .queued sendLock => some { s with sendLock, calls := s.calls.set k .queued }
  | .blocked _ => none

/-- `_sendLock.Release()` of call `k`, which then is over. -/
def release (s : Client) (k : Nat) (outcome : Outcome) : Client :=
  match s.sendLock.release with
  | none => { s with calls := s.calls.set k (.done .releaseThrew) }
  | some (served, sendLock) => served.foldl wake { s with sendLock, calls := s.calls.set k (.done outcome) }

/-- `_sendLock.Wait` or `_sendLock.WaitAsync` of the disposer. -/
def disposerWait (s : Client) (sync : Bool) : Client :=
  match if sync then s.sendLock.wait .disposer else s.sendLock.waitAsync .disposer with
  | .threw => { s with disposer := .threw }
  | .taken sendLock => { s with sendLock, disposer := .closing true }
  | .queued sendLock => { s with sendLock, disposer := .queued }
  | .blocked sendLock => { s with sendLock, disposer := .blocked }

def disposerRelease (s : Client) : Client :=
  match s.sendLock.release with
  | none => { s with disposer := .threw }
  | some (served, sendLock) => served.foldl wake { s with sendLock, disposer := .joining }

def step (s : Client) : Act → Option Client
  | .sendAsync payload =>
    let pc := if s.disposed then CallPc.done .objectDisposed
      else if payload.length > MAX_MSG_SIZE then .done .tooLarge
      else .entered
    some { s with calls := s.calls ++ [pc] }
  | .waitAsync k =>
    match s.calls[k]? with
    | some .entered => waitAsync s k
    | _ => none
  | .cancel k =>
    match s.calls[k]? with
    | some .entered => some { s with calls := s.calls.set k (.done .cancelled) }
    | some .queued =>
      some { s with sendLock := s.sendLock.remove (.call k), calls := s.calls.set k (.done .cancelled) }
    | _ => none
  | .check k =>
    match s.calls[k]? with
    | some .acquired =>
      some { s with calls := s.calls.set k (if s.disposed then .releasing .objectDisposed else .writing) }
    | _ => none
  | .write k ok =>
    match s.calls[k]? with
    | some .writing => some { s with calls := s.calls.set k (.releasing (if ok then .sent else .writeFailed)) }
    | _ => none
  | .release k =>
    match s.calls[k]? with
    | some (.releasing outcome) => some (release s k outcome)
    | _ => none
  | .dispose sync =>
    match s.disposer with
    | .idle => some { s with disposed := true, disposer := .entered sync }
    -- a second call returns at once
    | _ => some s
  | .wait =>
    match s.disposer with
    | .entered sync => some (disposerWait s sync)
    | _ => none
  | .take =>
    match s.disposer with
    | .blocked => s.sendLock.take.map fun sendLock => { s with sendLock, disposer := .closing true }
    | _ => none
  | .expire =>
    match s.disposer with
    | .blocked => some { s with sendLock := s.sendLock.giveUp, disposer := .closing false }
    | .queued => some { s with sendLock := s.sendLock.remove .disposer, disposer := .closing false }
    | _ => none
  | .closeSocket =>
    match s.disposer with
    | .closing true => some { s with disposer := .releasing }
    | .closing false => some { s with disposer := .joining }
    | _ => none
  | .disposerRelease =>
    match s.disposer with
    | .releasing => some (disposerRelease s)
    | _ => none
  | .disposeLock =>
    match s.disposer with
    | .joining => some { s with sendLock := s.sendLock.dispose, disposer := .lockDisposed }
    | _ => none
  | .returns =>
    match s.disposer with
    | .lockDisposed => some { s with disposer := .returned }
    | _ => none

def system : System Client Act := ⟨step⟩

/-- The lock is disposed when no call of `SendAsync` waits for it or holds it. -/
def Drained (s : Client) : Act → Prop
  | .disposeLock => ∀ c ∈ s.calls, c ≠ .queued ∧ c.holds = false
  | _ => True

instance (s : Client) (a : Act) : Decidable (Drained s a) := by
  unfold Drained
  split <;> infer_instance

/-! ## The lock -/

/-- How many hold the lock. -/
def held (s : Client) : Nat := s.calls.countP CallPc.holds + s.disposer.holds.toNat

/-- Every permit is accounted for, a waiter in the queue waits, and nobody waits for a disposed lock or holds it; `ws`
are handed the lock and still to be told. -/
structure Lawful (s : Client) (ws : List Waiter) : Prop where
  balanced : s.sendLock.Balanced (held s + ws.length)
  nodup : (ws ++ s.sendLock.queue).Nodup
  calls : ∀ k : Nat, .call k ∈ ws ++ s.sendLock.queue → s.calls[k]? = some .queued
  disposer : .disposer ∈ ws ++ s.sendLock.queue → s.disposer = .queued
  lock : s.sendLock.disposed = true ↔ s.disposer = .lockDisposed ∨ s.disposer = .returned
  drained : s.sendLock.disposed = true → ∀ c ∈ s.calls, c ≠ .queued ∧ c.holds = false
  released : ∀ c ∈ s.calls, c.outcome ≠ some .releaseThrew

variable {s u : Client} {ws ws' : List Waiter} {t : Semaphore Waiter} {a : Act} {k : Nat} {c c' : CallPc}
  {d : DisposerPc} {outcome : Outcome}

/-- Call `k` moves, and the permits with it. -/
theorem Lawful.call (h : Lawful s ws) (hk : s.calls[k]? = some c) (hnodup : (ws' ++ t.queue).Nodup)
    (hmem : ∀ w ∈ ws' ++ t.queue, w = .call k ∧ c' = .queued ∨ w ≠ .call k ∧ w ∈ ws ++ s.sendLock.queue)
    (hperm : t.count + c'.holds.toNat + ws'.length = s.sendLock.count + c.holds.toNat + ws.length)
    (hmax : t.max = s.sendLock.max) (hdis : t.disposed = s.sendLock.disposed)
    (hlive : s.sendLock.disposed = true → c' ≠ .queued ∧ c'.holds = false) (hthrew : c'.outcome ≠ some .releaseThrew) :
    Lawful { s with sendLock := t, calls := s.calls.set k c' } ws' where
  balanced := by
    have hb := h.balanced
    have hcount := countP_set_of_getElem? (f := CallPc.holds) (q := c') hk
    simp only [Semaphore.Balanced, held] at hb ⊢
    omega
  nodup := hnodup
  calls := by
    intro j hj
    rcases hmem _ hj with ⟨hjk, rfl⟩ | ⟨hjk, hj⟩
    · cases hjk
      exact (getElem?_set_iff hk).2 (.inl ⟨rfl, rfl⟩)
    · refine (getElem?_set_iff hk).2 (.inr ⟨?_, h.calls j hj⟩)
      rintro rfl
      exact hjk rfl
  disposer := by
    intro hd
    rcases hmem _ hd with ⟨hdk, -⟩ | ⟨-, hd⟩
    · cases hdk
    · exact h.disposer hd
  lock := by
    rw [hdis]
    exact h.lock
  drained := by
    intro hdead x hx
    simp only [hdis] at hdead
    rcases List.mem_or_eq_of_mem_set hx with hx | rfl
    · exact h.drained hdead x hx
    · exact hlive hdead
  released := by
    intro x hx
    rcases List.mem_or_eq_of_mem_set hx with hx | rfl
    · exact h.released x hx
    · exact hthrew

/-- The disposer moves, and the permits with it. -/
theorem Lawful.move (h : Lawful s ws) (hnodup : (ws' ++ t.queue).Nodup)
    (hmem : ∀ w ∈ ws' ++ t.queue, w = .disposer ∧ d = .queued ∨ w ≠ .disposer ∧ w ∈ ws ++ s.sendLock.queue)
    (hperm : t.count + d.holds.toNat + ws'.length = s.sendLock.count + s.disposer.holds.toNat + ws.length)
    (hmax : t.max = s.sendLock.max) (hlock : t.disposed = true ↔ d = .lockDisposed ∨ d = .returned)
    (hlive : t.disposed = true → s.sendLock.disposed = true ∨ ∀ c ∈ s.calls, c ≠ .queued ∧ c.holds = false) :
    Lawful { s with sendLock := t, disposer := d } ws' where
  balanced := by
    have hb := h.balanced
    simp only [Semaphore.Balanced, held] at hb ⊢
    omega
  nodup := hnodup
  calls := by
    intro j hj
    rcases hmem _ hj with ⟨hjd, -⟩ | ⟨-, hj⟩
    · cases hjd
    · exact h.calls j hj
  disposer := by
    intro hd
    rcases hmem _ hd with ⟨-, hd⟩ | ⟨hd, -⟩
    · exact hd
    · exact absurd rfl hd
  lock := hlock
  drained hdead := (hlive hdead).elim h.drained id
  released := h.released

theorem Lawful.not_mem_call (h : Lawful s ws) (hk : s.calls[k]? = some c) (hc : c ≠ .queued) :
    .call k ∉ ws ++ s.sendLock.queue := by
  intro hmem
  exact hc (Option.some.inj (hk.symm.trans (h.calls k hmem)))

theorem Lawful.not_mem_disposer (h : Lawful s ws) (hd : s.disposer ≠ .queued) :
    .disposer ∉ ws ++ s.sendLock.queue := fun hmem => hd (h.disposer hmem)

/-- A queue in which `w` is not stands as it is. -/
theorem stays {q q' : List Waiter} {w : Waiter} {P : Prop} (hsub : q' ⊆ q) (hw : w ∉ q') :
    ∀ v ∈ q', v = w ∧ P ∨ v ≠ w ∧ v ∈ q := by
  intro v hv
  refine .inr ⟨?_, hsub hv⟩
  rintro rfl
  exact hw hv

/-- A waiter that was not there gets in line. -/
theorem joins {q : List Waiter} {w : Waiter} {P : Prop} (hw : w ∉ q) (hP : P) :
    ∀ v ∈ q ++ [w], v = w ∧ P ∨ v ≠ w ∧ v ∈ q := by
  intro v hv
  rcases List.mem_append.1 hv with hv | hv
  · exact stays (List.Subset.refl q) hw v hv
  · exact .inl ⟨List.mem_singleton.1 hv, hP⟩

/-- Call `k` moves and the lock does not see it. -/
theorem Lawful.unseen (h : Lawful s ws) (hk : s.calls[k]? = some c) (hc : c ≠ .queued) (hholds : c'.holds = c.holds)
    (hc' : c' ≠ .queued) (hthrew : c'.outcome ≠ some .releaseThrew) : Lawful { s with calls := s.calls.set k c' } ws := by
  refine h.call hk h.nodup (stays (List.Subset.refl _) (h.not_mem_call hk hc)) (by rw [hholds]) rfl rfl
    (fun hdead => ⟨hc', ?_⟩) hthrew
  rw [hholds]
  exact (h.drained hdead c (List.mem_of_getElem? hk)).2

/-- The disposer moves before the disposal and the lock does not see it. -/
theorem Lawful.unseen_disposer (h : Lawful s ws) (hq : s.disposer ≠ .queued) (hholds : d.holds = s.disposer.holds)
    (hlock : (s.disposer = .lockDisposed ∨ s.disposer = .returned) ↔ (d = .lockDisposed ∨ d = .returned)) :
    Lawful { s with disposer := d } ws :=
  h.move h.nodup (stays (List.Subset.refl _) (h.not_mem_disposer hq)) (by rw [hholds]) rfl (h.lock.trans hlock) .inl

/-- Who waits for the lock or holds it finds it before its disposal. -/
theorem Lawful.live_of_call (h : Lawful s ws) (hk : s.calls[k]? = some c) (hc : c = .queued ∨ c.holds = true) :
    s.sendLock.disposed = false := by
  by_contra hdead
  obtain ⟨hq, hh⟩ := h.drained (Bool.of_not_eq_false hdead) c (List.mem_of_getElem? hk)
  rcases hc with hc | hc
  · exact hq hc
  · rw [hh] at hc
    cases hc

theorem Lawful.live_of_disposer (h : Lawful s ws) (hd : ¬(s.disposer = .lockDisposed ∨ s.disposer = .returned)) :
    s.sendLock.disposed = false := by
  by_contra hdead
  exact hd (h.lock.1 (Bool.of_not_eq_false hdead))

theorem Lawful.wake {w : Waiter} (h : Lawful s (w :: ws)) : Lawful (Disposal.wake s w) ws := by
  obtain ⟨hnot, hnodup⟩ := List.nodup_cons.1 h.nodup
  have hsub : ws ++ s.sendLock.queue ⊆ w :: ws ++ s.sendLock.queue := List.subset_cons_self _ _
  cases w with
  | call k =>
    have hk := h.calls k (by simp)
    have hlive := h.live_of_call hk (.inl rfl)
    refine h.call hk hnodup (stays hsub hnot) ?_ rfl rfl (by simp [hlive]) (by simp)
    simp only [CallPc.holds, Bool.toNat_true, Bool.toNat_false, List.length_cons]
    omega
  | disposer =>
    have hd := h.disposer (by simp)
    have hlive := h.live_of_disposer (by simp [hd])
    refine h.move hnodup (stays hsub hnot) ?_ rfl (by simp [hlive]) (by simp [hlive])
    simp only [hd, DisposerPc.holds, Bool.toNat_true, Bool.toNat_false, List.length_cons]
    omega

theorem Lawful.serve (h : Lawful s ws) : Lawful (ws.foldl Disposal.wake s) [] := by
  induction ws generalizing s with
  | nil => exact h
  | cons w ws ih => exact ih h.wake

/-! ## What the operations on the lock keep -/

theorem Lawful.waitAsync (h : Lawful s []) (hk : s.calls[k]? = some .entered)
    (hst : Disposal.waitAsync s k = some u) : Lawful u [] := by
  have hnot := h.not_mem_call hk (by simp)
  have hw := s.sendLock.waitAsync_begins (.call k)
  unfold Disposal.waitAsync at hst
  generalize s.sendLock.waitAsync (.call k) = w at hst hw
  cases hw with
  | threw hdead =>
    cases hst
    exact h.unseen hk (by simp) rfl (by simp) (by simp)
  | taken hlive hpos =>
    cases hst
    refine h.call hk h.nodup (stays (List.Subset.refl _) hnot) ?_ rfl rfl (by simp [hlive]) (by simp)
    simp only [CallPc.holds, Bool.toNat_true, Bool.toNat_false]
    omega
  | queued hlive =>
    cases hst
    exact h.call hk (by simpa using h.nodup.concat hnot) (joins hnot rfl) rfl rfl rfl (by simp [hlive]) (by simp)
  | blocked hlive => cases hst

/-- A cancelled call leaves the queue. -/
theorem Lawful.cancel (h : Lawful s []) (hk : s.calls[k]? = some .queued) : Lawful
    { s with sendLock := s.sendLock.remove (.call k), calls := s.calls.set k (.done .cancelled) } [] :=
  h.call hk (h.nodup.erase _) (stays (List.erase_subset ..) h.nodup.not_mem_erase) rfl rfl rfl (by simp) (by simp)

/-- A call that holds the lock releases it without an exception. -/
theorem Lawful.release (h : Lawful s []) (hk : s.calls[k]? = some (.releasing outcome)) :
    Lawful (Disposal.release s k outcome) [] := by
  have hout := h.released _ (List.mem_of_getElem? hk)
  have hlive := h.live_of_call hk (.inr rfl)
  have hheld : 0 < s.calls.countP CallPc.holds := List.countP_pos_iff.2 ⟨_, List.mem_of_getElem? hk, rfl⟩
  obtain ⟨n, hn⟩ : ∃ n, held s = n + 1 := Nat.exists_eq_add_one.2 (Nat.add_pos_left hheld _)
  have hb := h.balanced
  rw [List.length_nil, Nat.add_zero, hn] at hb
  obtain ⟨served, t, hrel⟩ := hb.exists_release hlive
  obtain ⟨-, hdis, hmax, -, hqueue, hcount⟩ := Semaphore.release_spec hrel
  have hnot := h.not_mem_call hk (by simp)
  unfold Disposal.release
  rw [hrel]
  rw [hqueue] at hnot
  refine Lawful.serve (h.call hk (hqueue ▸ h.nodup) (stays ?_ hnot) ?_ hmax (hdis.trans hlive.symm) (by simp [hlive])
    hout)
  · simp [hqueue]
  · simp only [CallPc.holds, Bool.toNat_true, Bool.toNat_false, List.length_nil]
    omega

theorem Lawful.disposerWait {sync : Bool} (h : Lawful s []) (hd : s.disposer = .entered sync) :
    Lawful (Disposal.disposerWait s sync) [] := by
  have hnot := h.not_mem_disposer (by simp [hd])
  have hlive := h.live_of_disposer (by simp [hd])
  have hw : s.sendLock.Begins .disposer
      (if sync then s.sendLock.wait .disposer else s.sendLock.waitAsync .disposer) := by
    split
    · exact s.sendLock.wait_begins _
    · exact s.sendLock.waitAsync_begins _
  unfold Disposal.disposerWait
  generalize (if sync then s.sendLock.wait .disposer else s.sendLock.waitAsync .disposer) = w at hw
  cases hw with
  | threw hdead => simp [hlive] at hdead
  | taken _ hpos =>
    refine h.move h.nodup (stays (List.Subset.refl _) hnot) ?_ rfl (by simp [hlive]) (by simp [hlive])
    simp only [hd, DisposerPc.holds, Bool.toNat_true, Bool.toNat_false]
    omega
  | queued =>
    exact h.move (by simpa using h.nodup.concat hnot) (joins hnot rfl) (by simp [hd]) rfl
      (by simp [hlive]) (by simp [hlive])
  | blocked =>
    exact h.move h.nodup (stays (List.Subset.refl _) hnot) (by simp [hd]) rfl (by simp [hlive])
      (by simp [hlive])

theorem Lawful.take (h : Lawful s []) (hd : s.disposer = .blocked) (hst : s.sendLock.take = some t) :
    Lawful { s with sendLock := t, disposer := .closing true } [] := by
  have hnot := h.not_mem_disposer (by simp [hd])
  have hlive := h.live_of_disposer (by simp [hd])
  obtain ⟨rfl, hpos⟩ := Semaphore.take_eq hst
  refine h.move h.nodup (stays (List.Subset.refl _) hnot) ?_ rfl (by simp [hlive]) (by simp [hlive])
  simp only [hd, DisposerPc.holds, Bool.toNat_true, Bool.toNat_false]
  omega

/-- The disposer gives up after two seconds. -/
theorem Lawful.expire (h : Lawful s []) (hd : s.disposer = .blocked ∧ t = s.sendLock.giveUp ∨
    s.disposer = .queued ∧ t = s.sendLock.remove .disposer) :
    Lawful { s with sendLock := t, disposer := .closing false } [] := by
  rcases hd with ⟨hd, rfl⟩ | ⟨hd, rfl⟩
  · have hlive := h.live_of_disposer (by simp [hd])
    exact h.move h.nodup (stays (List.Subset.refl _) (h.not_mem_disposer (by simp [hd])))
      (by simp [hd, Semaphore.giveUp]) rfl (by simp [hlive, Semaphore.giveUp])
      (by simp [hlive, Semaphore.giveUp])
  · have hlive := h.live_of_disposer (by simp [hd])
    exact h.move (h.nodup.erase _) (stays (List.erase_subset ..) h.nodup.not_mem_erase)
      (by simp [hd, Semaphore.remove]) rfl (by simp [hlive, Semaphore.remove])
      (by simp [hlive, Semaphore.remove])

theorem Lawful.disposerRelease (h : Lawful s []) (hd : s.disposer = .releasing) :
    Lawful (Disposal.disposerRelease s) [] := by
  have hlive := h.live_of_disposer (by simp [hd])
  have hnot := h.not_mem_disposer (by simp [hd])
  have hb : s.sendLock.Balanced (s.calls.countP CallPc.holds + 1) := by
    simpa [held, hd] using h.balanced
  obtain ⟨served, t, hrel⟩ := hb.exists_release hlive
  obtain ⟨-, hdis, hmax, -, hqueue, hcount⟩ := Semaphore.release_spec hrel
  unfold Disposal.disposerRelease
  rw [hrel]
  rw [hqueue] at hnot
  refine Lawful.serve (h.move (hqueue ▸ h.nodup) (stays ?_ hnot) ?_ hmax (by simp [hdis]) (by simp [hdis]))
  · simp [hqueue]
  · simp only [hd, DisposerPc.holds, Bool.toNat_true, Bool.toNat_false, List.length_nil]
    omega

/-- The lock is disposed when nobody waits for it or holds it. -/
theorem Lawful.disposeLock (h : Lawful s []) (hd : s.disposer = .joining)
    (hdrained : ∀ c ∈ s.calls, c ≠ .queued ∧ c.holds = false) :
    Lawful { s with sendLock := s.sendLock.dispose, disposer := .lockDisposed } [] :=
  h.move h.nodup (stays (List.Subset.refl _) (h.not_mem_disposer (by simp [hd])))
    (by simp [hd, Semaphore.dispose]) rfl (by simp [Semaphore.dispose]) fun _ => .inr hdrained

/-- A call that has not come to the lock. -/
theorem Lawful.sendAsync (h : Lawful s []) (hq : c ≠ .queued) (hholds : c.holds = false)
    (hthrew : c.outcome ≠ some .releaseThrew) : Lawful { s with calls := s.calls ++ [c] } [] where
  balanced := by
    have hcount : (s.calls ++ [c]).countP CallPc.holds = s.calls.countP CallPc.holds := by
      rw [List.countP_append, List.countP_singleton, hholds]
      rfl
    simpa only [held, hcount] using h.balanced
  nodup := h.nodup
  calls j hj := getElem?_concat_iff.2 (.inr (h.calls j hj))
  disposer := h.disposer
  lock := h.lock
  drained := by
    intro hdead x hx
    rcases List.mem_append.1 hx with hx | hx
    · exact h.drained hdead x hx
    · exact List.mem_singleton.1 hx ▸ ⟨hq, hholds⟩
  released := by
    intro x hx
    rcases List.mem_append.1 hx with hx | hx
    · exact h.released x hx
    · exact List.mem_singleton.1 hx ▸ hthrew

/-! ## Runs -/

theorem start_lawful : Lawful start [] where
  balanced := rfl
  nodup := .nil
  calls := by simp [start, Semaphore.new]
  disposer := by simp [start, Semaphore.new]
  lock := by simp [start, Semaphore.new]
  drained := by simp [start]
  released := by simp [start]

theorem step_lawful (h : Lawful s []) (ha : Drained s a) (hst : step s a = some u) : Lawful u [] := by
  cases a with
  | sendAsync payload =>
    cases hst
    refine h.sendAsync ?_ ?_ ?_ <;> repeat' split
    all_goals simp
  | waitAsync k =>
    simp only [step] at hst
    split at hst
    · exact h.waitAsync ‹_› hst
    · cases hst
  | cancel k =>
    simp only [step] at hst
    split at hst <;> cases hst
    · exact h.unseen (c := .entered) ‹_› (by simp) rfl (by simp) (by simp)
    · exact h.cancel ‹_›
  | check k =>
    simp only [step] at hst
    split at hst <;> cases hst
    refine h.unseen ‹_› (by simp) ?_ ?_ ?_ <;> split <;> simp
  | write k ok =>
    simp only [step] at hst
    split at hst <;> cases hst
    refine h.unseen (c := .writing) ‹_› (by simp) rfl (by simp) ?_
    split <;> simp
  | release k =>
    simp only [step] at hst
    split at hst <;> cases hst
    exact h.release ‹_›
  | dispose sync =>
    simp only [step] at hst
    split at hst <;> cases hst
    · have hd : s.disposer = .idle := ‹_›
      have := h.unseen_disposer (d := .entered sync) (by simp [hd]) (by simp [hd]) (by simp [hd])
      exact ⟨this.balanced, this.nodup, this.calls, this.disposer, this.lock, this.drained, this.released⟩
    · exact h
  | wait =>
    simp only [step] at hst
    split at hst <;> cases hst
    exact h.disposerWait ‹_›
  | take =>
    simp only [step] at hst
    split at hst
    · obtain ⟨t, ht, rfl⟩ := Option.map_eq_some_iff.1 hst
      exact h.take ‹_› ht
    · cases hst
  | expire =>
    simp only [step] at hst
    split at hst <;> cases hst
    · exact h.expire (.inl ⟨‹_›, rfl⟩)
    · exact h.expire (.inr ⟨‹_›, rfl⟩)
  | closeSocket =>
    simp only [step] at hst
    split at hst <;> cases hst <;> rename_i hd
    · exact h.unseen_disposer (by simp [hd]) (by simp [hd]) (by simp [hd])
    · exact h.unseen_disposer (by simp [hd]) (by simp [hd]) (by simp [hd])
  | disposerRelease =>
    simp only [step] at hst
    split at hst <;> cases hst
    exact h.disposerRelease ‹_›
  | disposeLock =>
    simp only [step] at hst
    split at hst <;> cases hst
    exact h.disposeLock ‹_› ha
  | returns =>
    simp only [step] at hst
    split at hst <;> cases hst
    rename_i hd
    exact h.unseen_disposer (by simp [hd]) (by simp [hd]) (by simp [hd])

/-- **Disposal.** While `Dispose` disposes the lock only when no call waits for it or holds it, no call is left in the
queue of a disposed lock, and no release throws. -/
theorem calls_come_back {as : List Act} (h : system.Runs Drained start as s) :
    (s.disposer = .returned → (∀ c ∈ s.calls, c.holds = false) → ∀ c ∈ s.calls, c ≠ .queued) ∧
      ∀ c ∈ s.calls, c ≠ .done .releaseThrew := by
  have hlawful := h.invariant (fun h ha hst => step_lawful h ha hst) start_lawful
  refine ⟨fun hreturned _ c hc => ?_, ?_⟩
  · exact (hlawful.drained (hlawful.lock.2 (.inr hreturned)) c hc).1
  · rintro c hc rfl
    exact hlawful.released _ hc rfl

/-- One call writes and one waits, `Dispose` gives up after two seconds, and both calls end before the tasks do. -/
def drainedRun : List Act :=
  [.sendAsync [1], .waitAsync 0, .check 0, .sendAsync [2], .waitAsync 1, .dispose true, .wait, .expire, .closeSocket,
    .write 0 false, .release 0, .check 1, .release 1, .disposeLock, .returns]

theorem calls_come_back_drained : ∃ s, system.Runs Drained start drainedRun s ∧ s.disposer = .returned ∧
    s.calls = [.done .writeFailed, .done .objectDisposed] ∧
    (∀ c ∈ s.calls, c ≠ .queued) ∧ ∀ c ∈ s.calls, c ≠ .done .releaseThrew := by
  obtain ⟨s, hrun, hd, hcalls⟩ := system.exists_run Drained start drainedRun
    (fun s => s.disposer = .returned ∧ s.calls = [.done .writeFailed, .done .objectDisposed])
    ⟨_, rfl, rfl, rfl⟩
  obtain ⟨hqueued, hthrew⟩ := calls_come_back hrun
  exact ⟨s, hrun, hd, hcalls, hqueued hd (by simp [hcalls]), hthrew⟩

/-- `Dispose` does not wait for the calls: one write outlasts its two seconds and the tasks. -/
def hastyRun : List Act :=
  [.sendAsync [1], .waitAsync 0, .check 0, .sendAsync [2], .waitAsync 1, .dispose true, .wait, .expire, .closeSocket,
    .disposeLock, .returns, .write 0 false, .release 0]

/-- The call that holds the lock throws in its `finally`, and the one behind it never comes back. -/
theorem call_left_in_queue : ∃ s, system.Runs (fun _ _ => True) start hastyRun s ∧ s.disposer = .returned ∧
    s.calls = [.done .releaseThrew, .queued] ∧ ∀ c ∈ s.calls, c.holds = false :=
  system.exists_run (fun _ _ => True) start hastyRun
    (fun s => s.disposer = .returned ∧ s.calls = [.done .releaseThrew, .queued] ∧ ∀ c ∈ s.calls, c.holds = false)
    ⟨_, rfl, rfl, rfl, by decide⟩

end KnotLink.CSharp.Disposal
