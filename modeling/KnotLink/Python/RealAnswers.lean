import KnotLink.Python.DeadConnection
/-!
# Answers that were given

`query` returns what it finds in `query_result` once `query_event` is set. `disconnect` sets that event too
(OpenSocketQuerier.py:87), so a call it wakes returns `None`; and a message may have been given to
`_internal_data_recv` before the call and get past `_state_lock` only after its first critical section. With one thread
calling `query`, nothing else goes wrong (`real_throughout`), and each of the two does (`violation_canReach`).

To the steps of `DeadConnection.lean` come the entry into `query` and the one into `_internal_data_recv`, each before its
critical section.
-/
namespace KnotLink.Python
open Lib

inductive CallerAct (τ : Type) where
  /-- The thread calls `query`; its first critical section is still to come. -/
  | enter
  /-- The receive thread calls `_internal_data_recv`; its critical section is still to come. -/
  | give (receivedText : τ)
  | connection (a : ConnectionAct τ)
  deriving DecidableEq, Repr

/-- A querier with one thread that calls `query`. -/
structure OneCaller (τ : Type) where
  threads : QuerierThreads τ
  /-- What `_internal_data_recv` holds before its critical section. -/
  holding : Option τ
  /-- What it was given, in order. -/
  given : List τ
  /-- A call before its first critical section: how much had been given when it began. -/
  entered : Option Nat
  /-- The same for every call behind it. -/
  begunAt : List Nat
  deriving DecidableEq, Repr

namespace OneCaller
variable {τ : Type} {cfg : QuerierConfig} {s u : OneCaller τ} {a : CallerAct τ}

def start (client : TcpClient) (receiving : Bool) : OneCaller τ := ⟨.start client receiving, none, [], none, []⟩

/-- The receive thread may take its next message, or end. -/
def free (s : OneCaller τ) : Bool := s.threads.receiving && s.threads.calling.isNone && s.holding.isNone

def step [DecidableEq τ] (cfg : QuerierConfig) (s : OneCaller τ) : CallerAct τ → Option (OneCaller τ)
  | .enter =>
    if (∀ p ∈ s.threads.calls, p = .ended) ∧ s.entered = none then some { s with entered := some s.given.length } else none
  | .give m => if s.free then some { s with holding := some m, given := s.given ++ [m] } else none
  | .connection a =>
    match QuerierThreads.connectionStep cfg s.threads a with
    | none => none
    | some threads => match a with
      | .querier (.call _ _) => s.entered.map fun n => { s with threads, entered := none, begunAt := s.begunAt ++ [n] }
      | .querier (.recv m) => if s.holding = some m then some { s with threads, holding := none } else none
      | .querier .lose | .badFrame => if s.holding = none then some { s with threads } else none
      | _ => some { s with threads }

def system [DecidableEq τ] (cfg : QuerierConfig) : System (OneCaller τ) (CallerAct τ) := ⟨step cfg⟩

/-- What a call returns is a message that was given after the call had begun. -/
def Real (s : OneCaller τ) : Prop :=
  ∀ k v, (k, v) ∈ s.threads.returns → ∃ n m, s.begunAt[k]? = some n ∧ v = some m ∧ m ∈ s.given.drop n

/-- A call comes to its first critical section with no older message before `_state_lock`, unless it will raise anyway;
`disconnect` comes to its own with an answer there for whoever may return. -/
def Answered (cfg : QuerierConfig) (s : OneCaller τ) : CallerAct τ → Prop
  | .connection (.querier (.call data timed)) => (Pc.begun data timed).live cfg = true →
      s.holding.isSome = true → ∀ n ∈ s.entered, n < s.given.length
  | .connection (.querier .disconnectShared) => s.threads.calls.any (Pc.live cfg) = true →
      s.threads.shared.queryResult.isSome = true
  | _ => True

instance (cfg : QuerierConfig) (s : OneCaller τ) : (a : CallerAct τ) → Decidable (Answered cfg s a)
  | .connection (.querier (.call _ _)) => inferInstanceAs (Decidable (_ → _ → ∀ _ ∈ _, _))
  | .connection (.querier .disconnectShared) => inferInstanceAs (Decidable (_ → _))
  | .connection (.querier (.send _ _)) | .connection (.querier (.wait _)) | .connection (.querier (.timeout _))
  | .connection (.querier (.finish _)) | .connection (.querier (.recv _)) | .connection (.querier .callback)
  | .connection (.querier (.callbackRaises _)) | .connection (.querier .lose) | .connection (.querier .disconnect)
  | .connection (.queryAsync _ _) | .connection (.heartBeat _) | .connection .badFrame | .enter | .give _ => inferInstanceAs (Decidable True)

/-- The slot is in order for a call that may return and that began when `n` messages had been given. -/
structure Current (s : OneCaller τ) (n : Nat) (p : Pc) : Prop where
  result : ∀ m, s.threads.shared.queryResult = some m → m ∈ s.given.drop n
  holding : s.holding.isSome = true → n < s.given.length
  event : s.threads.shared.queryEvent = true → s.threads.shared.queryResult.isSome = true
  woken : p = .woken → s.threads.shared.queryResult.isSome = true

structure Sound (cfg : QuerierConfig) (s : OneCaller τ) : Prop where
  begunAt : s.begunAt.length = s.threads.calls.length
  begunAt_le : ∀ n ∈ s.begunAt, n ≤ s.given.length
  entered : ∀ n, s.entered = some n → n ≤ s.given.length ∧ ∀ p ∈ s.threads.calls, p = .ended
  holding : ∀ m, s.holding = some m → s.given.getLast? = some m
  current : ∀ (k n : Nat) (p : Pc), s.begunAt[k]? = some n → s.threads.calls[k]? = some p → p.live cfg = true →
    s.Current n p
  real : Real s

/-! ## What a step can do -/

/-- The ways a step can go. -/
inductive Step (cfg : QuerierConfig) (s : OneCaller τ) : CallerAct τ → OneCaller τ → Prop where
  | enter (hidle : ∀ p ∈ s.threads.calls, p = .ended) (hentered : s.entered = none) :
      Step cfg s .enter { s with entered := some s.given.length }
  | give {m : τ} (hfree : s.free = true) : Step cfg s (.give m) { s with holding := some m, given := s.given ++ [m] }
  | call {data : PyStr} {timed : Bool} {n : Nat} (hn : s.entered = some n) :
      Step cfg s (.connection (.querier (.call data timed)))
        { s with
          threads := { s.threads with
            shared := s.threads.shared.begin
            calls := s.threads.calls ++ [.begun data timed] }
          entered := none
          begunAt := s.begunAt ++ [n] }
  | recv {m : τ} {t : QuerierThreads τ} (hm : s.holding = some m)
      (ht : QuerierThreads.step cfg s.threads (.recv m) = some t) :
      Step cfg s (.connection (.querier (.recv m))) { s with threads := t, holding := none }
  | other {a : ConnectionAct τ} {t : QuerierThreads τ} (hcall : ∀ data timed, a ≠ .querier (.call data timed))
      (hrecv : ∀ m, a ≠ .querier (.recv m)) (hlose : a = .querier .lose → s.holding = none)
      (ht : QuerierThreads.connectionStep cfg s.threads a = some t) : Step cfg s (.connection a) { s with threads := t }

theorem step_cases [DecidableEq τ] (h : step cfg s a = some u) : Step cfg s a u := by
  cases a with
  | enter =>
    simp only [step] at h
    split at h
    · rename_i hfree
      cases h
      exact .enter hfree.1 hfree.2
    · cases h
  | give m =>
    simp only [step] at h
    split at h
    · rename_i hfree
      cases h
      exact .give hfree
    · cases h
  | connection a =>
    simp only [step] at h
    split at h
    · cases h
    · rename_i t ht
      split at h
      · rename_i data timed
        obtain ⟨n, hn, rfl⟩ := Option.map_eq_some_iff.1 h
        cases ht
        exact .call hn
      · rename_i m
        split at h
        · rename_i hm
          cases h
          exact .recv hm ht
        · cases h
      · split at h
        · rename_i hhold
          cases h
          exact .other nofun nofun (fun _ => hhold) ht
        · cases h
      · split at h
        · cases h
          exact .other nofun nofun nofun ht
        · cases h
      · rename_i hcall hrecv hlose hbad
        cases h
        exact .other hcall hrecv (fun heq => absurd heq hlose) ht

/-! ## What one step keeps -/

theorem Current.same {n : Nat} {p q : Pc} (h : s.Current n p) {t : QuerierThreads τ}
    (hresult : t.shared.queryResult = s.threads.shared.queryResult)
    (hevent : t.shared.queryEvent = s.threads.shared.queryEvent)
    (hwoken : q = .woken → s.threads.shared.queryResult.isSome = true) : Current { s with threads := t } n q where
  result m hm := h.result m (hresult.symm.trans hm)
  holding := h.holding
  event hev := (congrArg Option.isSome hresult).trans (h.event (hevent.symm.trans hev))
  woken hq := (congrArg Option.isSome hresult).trans (hwoken hq)

/-- A step of the threads. -/
theorem Sound.move (hI : Sound cfg s) {t : QuerierThreads τ} (hlen : t.calls.length = s.threads.calls.length)
    (hidle : (∀ p ∈ s.threads.calls, p = .ended) → ∀ p ∈ t.calls, p = .ended)
    (hreal : Real { s with threads := t })
    (hcurrent : ∀ (k n : Nat) (p : Pc), s.begunAt[k]? = some n → t.calls[k]? = some p → p.live cfg = true →
      Current { s with threads := t } n p) : Sound cfg { s with threads := t } where
  begunAt := hI.begunAt.trans hlen.symm
  begunAt_le := hI.begunAt_le
  entered n hn := ⟨(hI.entered n hn).1, hidle (hI.entered n hn).2⟩
  holding := hI.holding
  current := hcurrent
  real := hreal

/-- Call `k` moves on to `q` and the slot stays. -/
theorem Sound.set (hI : Sound cfg s) {k : Nat} {p : Pc} (hk : s.threads.calls[k]? = some p) (hp : p ≠ .ended) (q : Pc)
    (hlive : q.live cfg = true → p.live cfg = true)
    (hwoken : q = .woken → p = .woken ∨ s.threads.shared.queryEvent = true) {t : QuerierThreads τ}
    (hresult : t.shared.queryResult = s.threads.shared.queryResult)
    (hevent : t.shared.queryEvent = s.threads.shared.queryEvent) (hcalls : t.calls = s.threads.calls.set k q)
    (hreal : Real { s with threads := t }) : Sound cfg { s with threads := t } := by
  refine hI.move (by simp [hcalls]) (fun hidle => absurd (hidle p (List.mem_of_getElem? hk)) hp) hreal ?_
  intro j n r hn hj hr
  rw [hcalls] at hj
  rcases (getElem?_set_iff hk).1 hj with ⟨rfl, rfl⟩ | ⟨-, hj⟩
  · have hcur := hI.current j n p hn hk (hlive hr)
    refine hcur.same hresult hevent fun hq => ?_
    rcases hwoken hq with hp | hev
    · exact hcur.woken hp
    · exact hcur.event hev
  · have hcur := hI.current j n r hn hj hr
    exact hcur.same hresult hevent hcur.woken

/-- A step that touches neither the calls nor the slot. -/
theorem Sound.keep (hI : Sound cfg s) {t : QuerierThreads τ} (hshared : t.shared = s.threads.shared)
    (hcalls : t.calls = s.threads.calls) (hreturns : t.returns = s.threads.returns) : Sound cfg { s with threads := t } := by
  refine hI.move (by rw [hcalls]) (by rw [hcalls]; exact id) (fun k v hv => hI.real k v (hreturns ▸ hv)) ?_
  intro k n p hn hk hp
  have hcur := hI.current k n p hn (hcalls ▸ hk) hp
  exact hcur.same (by rw [hshared]) (by rw [hshared]) hcur.woken

theorem mem_drop_append {g : List τ} {m : τ} {n : Nat} (h : m ∈ g.drop n) (x : τ) : m ∈ (g ++ [x]).drop n := by
  rw [List.drop_append]
  exact List.mem_append_left _ h

/-- The last message given is given after the call has begun, if any is. -/
theorem mem_drop_of_getLast? {g : List τ} {m : τ} {n : Nat} (h : g.getLast? = some m) (hn : n < g.length) :
    m ∈ g.drop n := by
  obtain ⟨init, rfl⟩ := List.getLast?_eq_some_iff.1 h
  rw [List.drop_append_of_le_length (by simpa [Nat.lt_succ_iff] using hn)]
  exact List.mem_append_right _ List.mem_cons_self

/-- Every call has its number. -/
theorem Sound.begunAt_of (hI : Sound cfg s) {k : Nat} {p : Pc} (hk : s.threads.calls[k]? = some p) :
    ∃ n, s.begunAt[k]? = some n := by
  have hlt : k < s.begunAt.length := hI.begunAt ▸ (List.getElem?_eq_some_iff.1 hk).1
  exact ⟨s.begunAt[k], List.getElem?_eq_getElem hlt⟩

theorem sound_enter (hI : Sound cfg s) (hidle : ∀ p ∈ s.threads.calls, p = .ended) :
    Sound cfg { s with entered := some s.given.length } where
  begunAt := hI.begunAt
  begunAt_le := hI.begunAt_le
  entered n hn := by
    obtain rfl : s.given.length = n := Option.some.inj hn
    exact ⟨Nat.le_refl _, hidle⟩
  holding := hI.holding
  current k n p hn hk hp := by
    have h := hI.current k n p hn hk hp
    exact ⟨h.result, h.holding, h.event, h.woken⟩
  real := hI.real

theorem sound_give (hI : Sound cfg s) (m : τ) :
    Sound cfg { s with holding := some m, given := s.given ++ [m] } where
  begunAt := hI.begunAt
  begunAt_le n hn := Nat.le_trans (hI.begunAt_le n hn) (by simp)
  entered n hn := ⟨Nat.le_trans (hI.entered n hn).1 (by simp), (hI.entered n hn).2⟩
  holding m' hm := by
    obtain rfl : m = m' := Option.some.inj hm
    simp
  current k n p hn hk hp := by
    have h := hI.current k n p hn hk hp
    have hle := hI.begunAt_le n (List.mem_of_getElem? hn)
    exact ⟨fun m' hm => mem_drop_append (h.result m' hm) m, fun _ => by simp; omega, h.event, h.woken⟩
  real k v hv := by
    obtain ⟨n, m', hn, rfl, hm⟩ := hI.real k v hv
    exact ⟨n, m', hn, rfl, mem_drop_append hm m⟩

theorem sound_call (hI : Sound cfg s) {data : PyStr} {timed : Bool} {n : Nat} (hn : s.entered = some n)
    (hok : Answered cfg s (.connection (.querier (.call data timed)))) :
    Sound cfg { s with
      threads := { s.threads with shared := s.threads.shared.begin, calls := s.threads.calls ++ [.begun data timed] }
      entered := none
      begunAt := s.begunAt ++ [n] } := by
  obtain ⟨hle, hidle⟩ := hI.entered n hn
  refine ⟨by simp [hI.begunAt], ?_, nofun, hI.holding, ?_, ?_⟩
  · intro n' hn'
    rcases List.mem_append.1 hn' with h | h
    · exact hI.begunAt_le n' h
    · rw [List.mem_singleton.1 h]
      exact hle
  · intro k n' p hn' hk hp
    rcases getElem?_concat_iff.1 hk with ⟨rfl, rfl⟩ | hk
    · obtain rfl : n' = n := by
        rcases getElem?_concat_iff.1 hn' with ⟨-, h⟩ | h
        · exact h
        · have := (List.getElem?_eq_some_iff.1 h).1
          exact absurd hI.begunAt (Nat.ne_of_gt this)
      refine ⟨nofun, fun hhold => ?_, nofun, nofun⟩
      exact hok hp hhold n' hn
    · -- the calls before it have ended
      rw [hidle p (List.mem_of_getElem? hk)] at hp
      cases hp
  · intro k v hv
    obtain ⟨n', m, hn', rfl, hm⟩ := hI.real k v hv
    exact ⟨n', m, getElem?_concat_iff.2 (.inr hn'), rfl, hm⟩

theorem sound_recv (hI : Sound cfg s) {m : τ} {t : QuerierThreads τ} (hm : s.holding = some m)
    (ht : QuerierThreads.step cfg s.threads (.recv m) = some t) : Sound cfg { s with threads := t, holding := none } := by
  cases QuerierThreads.step_cases ht with
  | stored hr hc hq htime =>
    refine ⟨by simp [hI.begunAt], hI.begunAt_le, fun n hn => ⟨(hI.entered n hn).1, ?_⟩, nofun, ?_, hI.real⟩
    · intro q hq
      obtain ⟨p, hp, rfl⟩ := List.mem_map.1 hq
      rw [(hI.entered n hn).2 p hp]
      rfl
    · intro k n p hn hk hp
      rw [List.getElem?_map, Option.map_eq_some_iff] at hk
      obtain ⟨p, hk, rfl⟩ := hk
      rw [Pc.live_wake] at hp
      have hlt := (hI.current k n p hn hk hp).holding (by simp [hm])
      refine ⟨fun m' hm' => ?_, nofun, fun _ => rfl, fun _ => rfl⟩
      obtain rfl : m = m' := Option.some.inj hm'
      exact mem_drop_of_getLast? (hI.holding m hm) hlt
  | passedOn hr hc hn =>
    refine ⟨hI.begunAt, hI.begunAt_le, hI.entered, nofun, ?_, hI.real⟩
    intro k n p hn hk hp
    have h := hI.current k n p hn hk hp
    exact ⟨h.result, nofun, h.event, h.woken⟩

theorem sound_other (hI : Sound cfg s) {a : QuerierAct τ} {t : QuerierThreads τ}
    (hok : Answered cfg s (.connection (.querier a))) (hcall : ∀ data timed, a ≠ .call data timed)
    (hrecv : ∀ m, a ≠ .recv m) (ht : QuerierThreads.step cfg s.threads a = some t) : Sound cfg { s with threads := t } := by
  cases QuerierThreads.step_cases ht with
  | call data timed => exact absurd rfl (hcall data timed)
  | stored => exact absurd rfl (hrecv _)
  | passedOn => exact absurd rfl (hrecv _)
  | @sent k data timed net c hk he =>
    exact hI.set hk nofun (.sent timed) (fun _ => Pc.live_begun he) nofun rfl rfl rfl hI.real
  | raised hk he => exact hI.set hk nofun .ended nofun nofun rfl rfl rfl hI.real
  | passed hk he => exact hI.set hk nofun .woken (fun _ => rfl) (fun _ => .inr he) rfl rfl rfl hI.real
  | @blocked k timed hk he => exact hI.set hk nofun (.waiting timed) (fun _ => rfl) nofun rfl rfl rfl hI.real
  | timeout hk => exact hI.set hk nofun .expired nofun nofun rfl rfl rfl hI.real
  | timedOut hk => exact hI.set hk nofun .ended nofun nofun rfl rfl rfl hI.real
  | returned hk =>
    refine hI.set hk nofun .ended nofun nofun rfl rfl rfl fun j v hv => ?_
    rcases List.mem_append.1 hv with hv | hv
    · exact hI.real j v hv
    · -- the call itself: it was woken by a message
      obtain ⟨rfl, rfl⟩ := Prod.mk.inj (List.mem_singleton.1 hv)
      obtain ⟨n, hn⟩ := hI.begunAt_of hk
      have hcur := hI.current j n .woken hn hk rfl
      obtain ⟨m, hm⟩ := Option.isSome_iff_exists.1 (hcur.woken rfl)
      exact ⟨n, m, hn, hm, hcur.result m hm⟩
  | callback hc => exact hI.keep rfl rfl rfl
  | callbackRaised hc => exact hI.keep rfl rfl rfl
  | lose hr hc => exact hI.keep rfl rfl rfl
  | disconnect => exact hI.keep rfl rfl rfl
  | disconnectShared hn =>
    refine hI.move (by simp) (fun hidle q hq => ?_) hI.real fun k n q hn hk hq => ?_
    · obtain ⟨p, hp, rfl⟩ := List.mem_map.1 hq
      rw [hidle p hp]
      rfl
    · rw [List.getElem?_map, Option.map_eq_some_iff] at hk
      obtain ⟨p, hk, rfl⟩ := hk
      rw [Pc.live_wake] at hq
      have hsome := hok (List.any_eq_true.2 ⟨p, List.mem_of_getElem? hk, hq⟩)
      have hcur := hI.current k n p hn hk hq
      exact ⟨hcur.result, hcur.holding, fun _ => hsome, fun _ => hsome⟩

theorem sound_step [DecidableEq τ] (hI : Sound cfg s) (hok : Answered cfg s a) (h : step cfg s a = some u) :
    Sound cfg u := by
  cases step_cases h with
  | enter hidle => exact sound_enter hI hidle
  | give => exact sound_give hI _
  | call hn => exact sound_call hI hn hok
  | recv hm ht => exact sound_recv hI hm ht
  | @other a t hcall hrecv hlose ht =>
    cases a with
    | querier a => exact sound_other hI hok (fun data timed h => hcall data timed (h ▸ rfl)) (fun m h => hrecv m (h ▸ rfl)) ht
    | queryAsync data net =>
      cases ht
      exact hI.keep rfl rfl rfl
    | heartBeat net =>
      cases ht
      exact hI.keep rfl rfl rfl
    | badFrame =>
      simp only [QuerierThreads.connectionStep] at ht
      split at ht <;> cases ht
      exact hI.keep rfl rfl rfl

theorem sound_start (cfg : QuerierConfig) (client : TcpClient) (receiving : Bool) :
    Sound cfg (start client receiving : OneCaller τ) where
  begunAt := rfl
  begunAt_le := nofun
  entered := nofun
  holding := nofun
  current k n p hn := by simp [start] at hn
  real k v hv := by simp [start, QuerierThreads.start] at hv

/-- **Whatever `query` returns was given after it had begun**, throughout every run whose steps meet `Answered`. -/
theorem real_throughout [DecidableEq τ] {client : TcpClient} {receiving : Bool} {as : List (CallerAct τ)}
    {t : OneCaller τ} (h : (system cfg).Runs (Answered cfg) (start client receiving) as t) :
    (system cfg).Throughout Real (start client receiving) as := by
  intro bs u hbs hrun
  have hsound := h.throughout (I := Sound cfg) (fun hI hok hst => sound_step hI hok hst)
    (sound_start cfg client receiving)
  exact (hsound bs u hbs hrun).real

/-- A query is answered; another thread disconnects before its result is fetched. -/
def disconnectedBehindAnswer : List (CallerAct Nat) := [.enter, .connection (.querier (.call (str "a") false)),
  .connection (.querier (.send 0 .ok)), .connection (.querier (.wait 0)), .give 7, .connection (.querier (.recv 7)),
  .connection (.querier .disconnect), .connection (.querier .disconnectShared), .connection (.querier (.finish 0))]

theorem real_throughout_disconnected : ∃ t,
    (system ⟨none, none, false⟩).Runs (Answered ⟨none, none, false⟩) (start .fresh true) disconnectedBehindAnswer t ∧
    t.threads.returns = [(0, some 7)] ∧
    (system ⟨none, none, false⟩).Throughout Real (start .fresh true) disconnectedBehindAnswer := by
  obtain ⟨t, hrun, ht⟩ := (system ⟨none, none, false⟩).exists_run (Answered ⟨none, none, false⟩) (start .fresh true)
    disconnectedBehindAnswer (fun t => t.threads.returns = [(0, some 7)]) (by decide +kernel)
  exact ⟨t, hrun, ht, real_throughout hrun⟩

/-- Another thread disconnects while the query waits: it returns `None`. -/
theorem none_returned : ∃ (as : List (CallerAct Nat)) (t : OneCaller Nat),
    (system ⟨none, none, false⟩).Runs (fun _ _ => True) (start .fresh true) as t ∧ t.threads.returns = [(0, none)] ∧
      ¬ Real t := by
  obtain ⟨t, hrun, ht⟩ := (system ⟨none, none, false⟩).exists_run (fun _ _ => True) (start .fresh true)
    ([.enter, .connection (.querier (.call (str "a") false)), .connection (.querier (.send 0 .ok)),
      .connection (.querier (.wait 0)), .connection (.querier .disconnect), .connection (.querier .disconnectShared),
      .connection (.querier (.finish 0))] : List (CallerAct Nat))
    (fun t => t.threads.returns = [(0, none)]) (by decide +kernel)
  refine ⟨_, t, hrun, ht, fun hreal => ?_⟩
  obtain ⟨n, m, -, hm, -⟩ := hreal 0 none (by simp [ht])
  cases hm

/-! ## Every other step goes wrong -/

/-- The receive thread is where its message is, and a `disconnect` on its way has closed the client. -/
structure Placed (s : OneCaller τ) : Prop where
  holding : s.holding.isSome = true → s.threads.receiving = true ∧ s.threads.calling = none
  down : 0 < s.threads.disconnecting → s.threads.client.connected = false

theorem placed_step [DecidableEq τ] (hI : Placed s) (h : step cfg s a = some u) : Placed u := by
  cases step_cases h with
  | enter => exact ⟨hI.holding, hI.down⟩
  | give hfree =>
    simp only [free, Bool.and_eq_true, Option.isNone_iff_eq_none] at hfree
    exact ⟨fun _ => hfree.1, hI.down⟩
  | call => exact ⟨hI.holding, hI.down⟩
  | recv hm ht =>
    cases QuerierThreads.step_cases ht with
    | stored => exact ⟨by simp, hI.down⟩
    | passedOn => exact ⟨by simp, hI.down⟩
  | @other a t hcall hrecv hlose ht =>
    cases a with
    | queryAsync data net =>
      cases ht
      exact ⟨hI.holding, fun hd => QuerierThreads.sendQuery_down rfl (hI.down hd)⟩
    | heartBeat net =>
      cases ht
      refine ⟨hI.holding, fun hd => ?_⟩
      have hc := hI.down hd
      exact (congrArg TcpClient.connected (QuerierThreads.sendData_down hc heartbeat net)).trans hc
    | badFrame =>
      simp only [QuerierThreads.connectionStep] at ht
      split at ht <;> cases ht
      exact ⟨hI.holding, fun _ => rfl⟩
    | querier a =>
      cases QuerierThreads.step_cases (u := t) (show QuerierThreads.step cfg s.threads a = some t from ht) with
      | call data timed => exact absurd rfl (hcall data timed)
      | stored => exact absurd rfl (hrecv _)
      | passedOn => exact absurd rfl (hrecv _)
      | sent hk he => exact ⟨hI.holding, fun hd => QuerierThreads.sendQuery_down he (hI.down hd)⟩
      | raised hk he => exact ⟨hI.holding, fun hd => QuerierThreads.sendQuery_down he (hI.down hd)⟩
      | passed => exact ⟨hI.holding, hI.down⟩
      | blocked => exact ⟨hI.holding, hI.down⟩
      | timeout => exact ⟨hI.holding, hI.down⟩
      | timedOut => exact ⟨hI.holding, hI.down⟩
      | returned => exact ⟨hI.holding, hI.down⟩
      | callback => exact ⟨fun hh => ⟨(hI.holding hh).1, rfl⟩, hI.down⟩
      | callbackRaised hc =>
        refine ⟨fun hh => absurd (hc.symm.trans (hI.holding hh).2) (by simp), fun hd => ?_⟩
        exact QuerierThreads.raised_down (hI.down hd) _
      | lose => exact ⟨fun hh => by simp [hlose rfl] at hh, fun _ => rfl⟩
      | disconnect => exact ⟨hI.holding, fun _ => rfl⟩
      | disconnectShared hn => exact ⟨hI.holding, fun _ => hI.down (by omega)⟩

theorem sendQuery_of_down {c : TcpClient} {data : PyStr} (hm : (queryMessage cfg.appID cfg.openSocketID data).isOk = true)
    (hc : c.connected = false) : sendQuery cfg.appID cfg.openSocketID c data .ok = (c, .ok ()) := by
  unfold sendQuery
  cases h : queryMessage cfg.appID cfg.openSocketID data with
  | error e =>
    rw [h] at hm
    cases hm
  | ok sData => simp [TcpClient.sendData, TcpClient.writeWithLengthPrefix, hc]

/-- `k` has returned what was in the slot in `s`. -/
def ReturnsSlot (s : OneCaller τ) (k : Nat) (t : OneCaller τ) : Prop :=
  (k, s.threads.shared.queryResult) ∈ t.threads.returns ∧ t.begunAt = s.begunAt ∧ t.given = s.given

section
variable [DecidableEq τ] {k : Nat}

theorem woken_canReach (hk : s.threads.calls[k]? = some .woken) :
    (system cfg).CanReach (fun _ _ => True) (ReturnsSlot s k) s := by
  have hst : (system cfg).step s (.connection (.querier (.finish k))) = some { s with threads := { s.threads with
      shared := { s.threads.shared with isQuerying := false }
      calls := s.threads.calls.set k .ended
      returns := s.threads.returns ++ [(k, s.threads.shared.queryResult)] } } := by
    simp [system, step, QuerierThreads.connectionStep, QuerierThreads.step, hk, QueryState.finish]
  exact .before trivial hst (.now ⟨by simp, rfl, rfl⟩)

theorem sent_canReach {timed : Bool} (hk : s.threads.calls[k]? = some (.sent timed))
    (hevent : s.threads.shared.queryEvent = true) :
    (system cfg).CanReach (fun _ _ => True) (ReturnsSlot s k) s := by
  have hst : (system cfg).step s (.connection (.querier (.wait k))) =
      some { s with threads := { s.threads with calls := s.threads.calls.set k .woken } } := by
    simp [system, step, QuerierThreads.connectionStep, QuerierThreads.step, hk, hevent]
  have hset : (s.threads.calls.set k .woken)[k]? = some .woken := (getElem?_set_iff hk).2 (.inl ⟨rfl, rfl⟩)
  exact .before trivial hst (woken_canReach hset)

/-- A call that may return, on a client that is down, with the event set. -/
theorem live_canReach {p : Pc} (hk : s.threads.calls[k]? = some p) (hp : p.live cfg = true) (hwake : p.wake = p)
    (hdown : s.threads.client.connected = false) (hevent : s.threads.shared.queryEvent = true) :
    (system cfg).CanReach (fun _ _ => True) (ReturnsSlot s k) s := by
  cases p with
  | begun data timed =>
    have hst : (system cfg).step s (.connection (.querier (.send k .ok))) =
        some { s with threads := { s.threads with calls := s.threads.calls.set k (.sent timed) } } := by
      simp [system, step, QuerierThreads.connectionStep, QuerierThreads.step, hk, sendQuery_of_down hp hdown, hdown]
    have hset : (s.threads.calls.set k (.sent timed))[k]? = some (.sent timed) :=
      (getElem?_set_iff hk).2 (.inl ⟨rfl, rfl⟩)
    exact .before trivial hst (sent_canReach hset hevent)
  | sent timed => exact sent_canReach hk hevent
  | woken => exact woken_canReach hk
  | waiting timed => cases hwake
  | expired | ended => cases hp

/-- `disconnect` comes with nothing in the slot for a call that may return. -/
theorem disconnect_canReach (hP : Placed s) (hno : ¬ Answered cfg s (.connection (.querier .disconnectShared)))
    (h : step cfg s (.connection (.querier .disconnectShared)) = some u) :
    (system cfg).CanReach (fun _ _ => True) (fun t => ¬ Real t) u := by
  simp only [Answered, Classical.not_imp, Bool.not_eq_true, Option.isSome_eq_false_iff, Option.isNone_iff_eq_none] at hno
  obtain ⟨hany, hnone⟩ := hno
  obtain ⟨p, hp, hlive⟩ := List.any_eq_true.1 hany
  obtain ⟨k, hk⟩ := List.mem_iff_getElem?.1 hp
  cases step_cases h with
  | other hcall hrecv hlose ht =>
    cases QuerierThreads.step_cases (show QuerierThreads.step cfg s.threads .disconnectShared = some _ from ht) with
    | @disconnectShared n hn =>
      let after : OneCaller τ := { s with threads := { s.threads with
        shared := s.threads.shared.disconnect
        calls := s.threads.calls.map Pc.wake
        disconnecting := n } }
      have hk' : after.threads.calls[k]? = some p.wake := by simp [after, hk]
      have hwake : p.wake.wake = p.wake := by cases p <;> rfl
      have hret : (system cfg).CanReach (fun _ _ => True) (ReturnsSlot after k) after :=
        live_canReach hk' (by rw [Pc.live_wake, hlive]) hwake (hP.down (by omega)) rfl
      refine hret.mono ?_
      rintro t ⟨hret, -, -⟩ hreal
      obtain ⟨n, m, -, hm, -⟩ := hreal k _ hret
      exact absurd (hnone.symm.trans hm) nofun

/-- A call begins with an older message before `_state_lock`. -/
theorem call_canReach (hI : Sound cfg s) (hP : Placed s) {data : PyStr} {timed : Bool}
    (hno : ¬ Answered cfg s (.connection (.querier (.call data timed))))
    (h : step cfg s (.connection (.querier (.call data timed))) = some u) :
    (system cfg).CanReach (fun _ _ => True) (fun t => ¬ Real t) u := by
  simp only [Answered, Classical.not_imp, not_forall, Nat.not_lt] at hno
  obtain ⟨hlive, hhold, n, hn, hle⟩ := hno
  obtain ⟨m, hm⟩ := Option.isSome_iff_exists.1 hhold
  obtain ⟨hrecv, hcalling⟩ := hP.holding hhold
  cases step_cases h with
  | other hcall => exact absurd rfl (hcall data timed)
  | @call _ _ n' hn' =>
    obtain rfl : n' = n := Option.some.inj (hn'.symm.trans hn)
    -- the message is stored, and another thread begins to disconnect
    let stored : OneCaller τ := { s with
      threads := { s.threads with
        shared := { s.threads.shared.begin with queryResult := some m, queryEvent := true }
        calls := (s.threads.calls ++ [Pc.begun data timed]).map Pc.wake
        handed := s.threads.handed ++ [m] }
      holding := none
      entered := none
      begunAt := s.begunAt ++ [n'] }
    let closed : OneCaller τ := { stored with threads := { stored.threads with
      client := s.threads.client.disconnect
      disconnecting := s.threads.disconnecting + 1 } }
    have hk : closed.threads.calls[s.threads.calls.length]? = some (.begun data timed) := by
      simp [closed, stored, Pc.wake]
    have hret : (system cfg).CanReach (fun _ _ => True) (ReturnsSlot closed s.threads.calls.length) closed :=
      live_canReach hk hlive rfl rfl rfl
    have hbad : (system cfg).CanReach (fun _ _ => True) (fun t => ¬ Real t) closed := by
      refine hret.mono ?_
      rintro t ⟨hret, hbegun, hgiven⟩ hreal
      obtain ⟨i, m', hi, -, hmem⟩ := hreal _ _ hret
      have hlast : closed.begunAt[s.threads.calls.length]? = some n' := by
        simp [closed, stored, ← hI.begunAt]
      rw [hbegun, hlast] at hi
      obtain rfl := Option.some.inj hi
      rw [hgiven, List.drop_eq_nil_of_le hle] at hmem
      cases hmem
    have hclose : (system cfg).step stored (.connection (.querier .disconnect)) = some closed := rfl
    refine .before (a := .connection (.querier (.recv m))) (u := stored) trivial ?_ (.before trivial hclose hbad)
    simp [system, step, QuerierThreads.connectionStep, QuerierThreads.step, QueryState.recv, QueryState.begin, stored, hm,
      hrecv, hcalling]

/-- **Nothing else may happen**: behind any other step a call can return what it should not. -/
theorem violation_canReach {client : TcpClient} {receiving : Bool} {as : List (CallerAct τ)}
    (h : (system cfg).Runs (Answered cfg) (start client receiving) as s) (hno : ¬ Answered cfg s a)
    (hst : step cfg s a = some u) : (system cfg).CanReach (fun _ _ => True) (fun t => ¬ Real t) u := by
  have hI : Sound cfg s := h.invariant (fun hI hok hst => sound_step hI hok hst) (sound_start cfg client receiving)
  have hP : Placed s := h.invariant (fun hP _ hst => placed_step hP hst) ⟨nofun, fun hd => absurd hd (Nat.lt_irrefl 0)⟩
  cases a with
  | enter | give m => exact absurd trivial hno
  | connection a =>
    cases a with
    | queryAsync data net | heartBeat net | badFrame => exact absurd trivial hno
    | querier a =>
      cases a with
      | call data timed => exact call_canReach hI hP hno hst
      | disconnectShared => exact disconnect_canReach hP hno hst
      | send k net | wait k | timeout k | finish k | recv m | callback | callbackRaises e | lose | disconnect =>
        exact absurd trivial hno

end

end OneCaller
end KnotLink.Python
