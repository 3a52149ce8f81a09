import KnotLink.CSharp.Querier
/-!
# Whose answer C# `Query` returns

The service answers the requests in order, each once, and nobody calls `QueryAsync`. The receive loop ends
the query (OpenSocketQuerier.cs:149) before the caller has taken its answer, so the check of the next call
lets it in and its `Reset` undoes the `Set` (`answer_of_next_query`). Every call is answered as long as
the check lets nobody in while a call waits, no clean-up of an earlier call runs while one waits for its
answer, and a stored answer is the one the waiting call asked for (`returns_own_answer`).
-/
namespace KnotLink.CSharp
open Lib

/-- Call `k` waits. -/
def QueryPc.waitsAt (calls : List QueryPc) (k : Nat) : Bool := calls[k]?.any QueryPc.waits

namespace QueryPc
variable {calls : List QueryPc} {j k : Nat} {p q : QueryPc}

theorem waitsAt_iff : waitsAt calls k = true ↔ ∃ p, calls[k]? = some p ∧ p.waits = true := by
  unfold waitsAt
  rw [Option.any_eq_true]

theorem waitsAt_set (hk : calls[k]? = some p) (h : waitsAt (calls.set k q) j = true) :
    (j = k ∧ q.waits = true) ∨ (j ≠ k ∧ waitsAt calls j = true) := by
  obtain ⟨r, hj, hr⟩ := waitsAt_iff.1 h
  rcases (getElem?_set_iff hk).1 hj with ⟨rfl, rfl⟩ | ⟨hne, hj⟩
  · exact .inl ⟨rfl, hr⟩
  · exact .inr ⟨hne, waitsAt_iff.2 ⟨r, hj, hr⟩⟩

theorem waitsAt_concat (h : waitsAt (calls ++ [q]) j = true) :
    (j = calls.length ∧ q.waits = true) ∨ waitsAt calls j = true := by
  obtain ⟨r, hj, hr⟩ := waitsAt_iff.1 h
  rcases getElem?_concat_iff.1 hj with ⟨rfl, rfl⟩ | hj
  · exact .inl ⟨rfl, hr⟩
  · exact .inr (waitsAt_iff.2 ⟨r, hj, hr⟩)

theorem lt_of_waitsAt (h : waitsAt calls k = true) : k < calls.length := by
  obtain ⟨p, hk, -⟩ := waitsAt_iff.1 h
  exact (List.getElem?_eq_some_iff.1 hk).1

end QueryPc

namespace Queriers
variable {τ : Type} {callback : Bool} {answer : Nat → τ} {s u : Queriers τ} {a : QuerierAct τ}

/-! ## What is assumed and what is promised -/

/-- What arrives is the answer to the next request. -/
def InOrder (answer : Nat → τ) (s : Queriers τ) : QuerierAct τ → Prop
  | .receive m => s.requests[s.handed.length]?.map answer = some m
  | _ => True

instance [DecidableEq τ] (answer : Nat → τ) (s : Queriers τ) : (a : QuerierAct τ) → Decidable (InOrder answer s a)
  | .receive m => inferInstanceAs (Decidable (s.requests[s.handed.length]?.map answer = some m))
  | .query _ | .send _ | .sendFails _ | .wake _ | .timeout _ | .finish _ | .rethrow _ | .store | .callback =>
    inferInstanceAs (Decidable True)

/-- The step leaves a waiting call alone: the check lets nobody in beside it, no other call clears the mark
before the event is set, and what is stored is its own answer. -/
def Undisturbed (s : Queriers τ) : QuerierAct τ → Prop
  | .query _ => s.shared.isQuerying = false → ∀ k < s.calls.length, QueryPc.waitsAt s.calls k = false
  | .finish k | .rethrow k =>
    s.shared.queryEvent = false → ∀ j < s.calls.length, j ≠ k → QueryPc.waitsAt s.calls j = false
  | .store => ∀ k < s.calls.length, QueryPc.waitsAt s.calls k = true →
    s.requests[s.handed.length - 1]? = some k
  | _ => True

instance (s : Queriers τ) : (a : QuerierAct τ) → Decidable (Undisturbed s a)
  | .query _ => inferInstanceAs (Decidable (_ → ∀ _ < s.calls.length, _))
  | .finish k | .rethrow k => inferInstanceAs (Decidable (_ → ∀ j < s.calls.length, j ≠ k → _))
  | .store => inferInstanceAs (Decidable (∀ _ < s.calls.length, _ → _))
  | .send _ | .sendFails _ | .wake _ | .timeout _ | .receive _ | .callback => inferInstanceAs (Decidable True)

/-- `OnDataReceivedAsync` is through with the answer to call `k`. -/
def Answered (s : Queriers τ) (k : Nat) : Prop :=
  ∃ i, s.requests[i]? = some k ∧ i < s.handed.length ∧ ∀ m, s.recv = .storing m → i + 1 < s.handed.length

/-- Each call gets its own answer. -/
structure OwnAnswers (answer : Nat → τ) (s : Queriers τ) : Prop where
  returns : ∀ r ∈ s.returns, r.2 = answer r.1
  /-- No call ends with "No result received." -/
  noResult : ∀ p ∈ s.calls, p ≠ .failing .noResult
  /-- The mark of a call that waits for its answer is not cleared. -/
  marked : ∀ k, QueryPc.waitsAt s.calls k = true → s.shared.queryEvent = false → s.shared.isQuerying = true
  /-- An answer is not lost before its call has taken it. -/
  answered : ∀ k, QueryPc.waitsAt s.calls k = true → s.Answered k →
    s.shared.queryEvent = true ∧ s.shared.queryResult = some (answer k)

/-! ## The invariant -/

structure Waiter (answer : Nat → τ) (s : Queriers τ) : Prop where
  returns : ∀ r ∈ s.returns, r.2 = answer r.1
  noResult : ∀ k : Nat, s.calls[k]? ≠ some (.failing .noResult)
  alone : ∀ j k, QueryPc.waitsAt s.calls j = true → QueryPc.waitsAt s.calls k = true → j = k
  marked : ∀ k, QueryPc.waitsAt s.calls k = true → s.shared.queryEvent = false → s.shared.isQuerying = true
  result : ∀ k, QueryPc.waitsAt s.calls k = true → s.shared.queryEvent = true →
    s.shared.queryResult = some (answer k)
  woken : ∀ k : Nat, s.calls[k]? = some .woken → s.shared.queryEvent = true
  set : ∀ k, QueryPc.waitsAt s.calls k = true → s.Answered k → s.shared.queryEvent = true
  asked : ∀ k ∈ s.requests, ∃ p, s.calls[k]? = some p ∧ ∀ timeoutMs, p ≠ .entered timeoutMs
  handed_le : s.handed.length ≤ s.requests.length
  storing : ∀ m, s.recv = .storing m → s.handed ≠ [] ∧ s.requests[s.handed.length - 1]?.map answer = some m

theorem Waiter.start : Waiter answer start where
  returns := by simp [Queriers.start]
  noResult := by simp [Queriers.start]
  alone := by simp [Queriers.start, QueryPc.waitsAt]
  marked := by simp [Queriers.start, QueryPc.waitsAt]
  result := by simp [Queriers.start, QueryPc.waitsAt]
  woken := by simp [Queriers.start]
  set := by simp [Queriers.start, QueryPc.waitsAt]
  asked := by simp [Queriers.start]
  handed_le := Nat.le_refl _
  storing := by simp [Queriers.start]

theorem Waiter.ownAnswers (hI : Waiter answer s) : OwnAnswers answer s where
  returns := hI.returns
  noResult := by
    intro p hp hnr
    obtain ⟨k, hk⟩ := List.getElem?_of_mem hp
    exact hI.noResult k (hnr ▸ hk)
  marked := hI.marked
  answered := by
    intro k hk ha
    have hset := hI.set k hk ha
    exact ⟨hset, hI.result k hk hset⟩

/-- Call `k` moves from `p` to `q`, and nothing else changes. -/
theorem Waiter.move (hI : Waiter answer s) {k : Nat} {p q : QueryPc} (hk : s.calls[k]? = some p)
    (hw : q.waits = true → p.waits = true) (hwoken : q = .woken → s.shared.queryEvent = true)
    (hnr : q ≠ .failing .noResult) (hent : ∀ timeoutMs, q ≠ .entered timeoutMs) :
    Waiter answer { s with calls := s.calls.set k q } := by
  have hwaits : ∀ j, QueryPc.waitsAt (s.calls.set k q) j = true → QueryPc.waitsAt s.calls j = true := by
    intro j hj
    rcases QueryPc.waitsAt_set hk hj with ⟨rfl, hq⟩ | ⟨-, hj⟩
    · exact QueryPc.waitsAt_iff.2 ⟨p, hk, hw hq⟩
    · exact hj
  exact { hI with
    noResult := by
      intro j hj
      rcases (getElem?_set_iff hk).1 hj with ⟨-, hq⟩ | ⟨-, hj⟩
      · exact hnr hq.symm
      · exact hI.noResult j hj
    alone := fun i j hi hj => hI.alone i j (hwaits i hi) (hwaits j hj)
    marked := fun j hj => hI.marked j (hwaits j hj)
    result := fun j hj => hI.result j (hwaits j hj)
    woken := by
      intro j hj
      rcases (getElem?_set_iff hk).1 hj with ⟨-, hq⟩ | ⟨-, hj⟩
      · exact hwoken hq.symm
      · exact hI.woken j hj
    set := fun j hj => hI.set j (hwaits j hj)
    asked := by
      intro j hj
      obtain ⟨r, hr, hne⟩ := hI.asked j hj
      by_cases hjk : j = k
      · exact ⟨q, (getElem?_set_iff hk).2 (.inl ⟨hjk, rfl⟩), hent⟩
      · exact ⟨r, (getElem?_set_iff hk).2 (.inr ⟨hjk, hr⟩), hne⟩ }

/-- `_isQuerying = false` where no call waits for its answer. -/
theorem Waiter.clear (hI : Waiter answer s)
    (h : s.shared.queryEvent = false → ∀ k, QueryPc.waitsAt s.calls k = false) :
    Waiter answer { s with shared := s.shared.clear } :=
  { hI with
    marked := by
      intro k hk he
      rw [h he k] at hk
      cases hk }

/-- The clean-up of a call that does not wait. -/
theorem Waiter.cleanup (hI : Waiter answer s) {k : Nat} {p q : QueryPc} (hk : s.calls[k]? = some p)
    (hq : q.waits = false) (hnr : q ≠ .failing .noResult)
    (hin : s.shared.queryEvent = false → ∀ j < s.calls.length, j ≠ k → QueryPc.waitsAt s.calls j = false) :
    Waiter answer { s with shared := s.shared.clear, calls := s.calls.set k q } := by
  have hmove : Waiter answer { s with calls := s.calls.set k q } := by
    apply hI.move hk _ _ hnr
    · rintro _ rfl
      cases hq
    · intro h
      rw [hq] at h
      cases h
    · rintro rfl
      cases hq
  apply hmove.clear
  intro he j
  cases hj : QueryPc.waitsAt (s.calls.set k q) j with
  | false => rfl
  | true =>
    rcases QueryPc.waitsAt_set hk hj with ⟨-, hw⟩ | ⟨hne, hw⟩
    · rw [hq] at hw
      cases hw
    · rw [hin he j (QueryPc.lt_of_waitsAt hw) hne] at hw
      cases hw

/-- The check lets a call in where nobody waits. -/
theorem Waiter.reset (hI : Waiter answer s) (hno : ∀ k, QueryPc.waitsAt s.calls k = false) :
    Waiter answer { s with shared := ⟨none, true, false⟩ } := by
  have hnot : ∀ k, QueryPc.waitsAt s.calls k ≠ true := by
    intro k hk
    rw [hno k] at hk
    cases hk
  exact { hI with
    marked := fun _ _ _ => rfl
    result := fun k hk => absurd hk (hnot k)
    woken := fun k hk => absurd (QueryPc.waitsAt_iff.2 ⟨_, hk, rfl⟩) (hnot k)
    set := fun k hk => absurd hk (hnot k) }

/-- A new call; if it is to wait, it is the only one and its query is marked. -/
theorem Waiter.join (hI : Waiter answer s) {q : QueryPc} (hnr : q ≠ .failing .noResult) (hwoken : q ≠ .woken)
    (hq : q.waits = true → (∀ k, QueryPc.waitsAt s.calls k = false) ∧ s.shared.isQuerying = true ∧
      s.shared.queryEvent = false) :
    Waiter answer { s with calls := s.calls ++ [q] } :=
  { hI with
    noResult := by
      intro k hk
      rcases getElem?_concat_iff.1 hk with ⟨-, hk⟩ | hk
      · exact hnr hk.symm
      · exact hI.noResult k hk
    alone := by
      intro j k hj hk
      rcases QueryPc.waitsAt_concat hj with ⟨rfl, hw⟩ | hj <;>
        rcases QueryPc.waitsAt_concat hk with ⟨rfl, hw'⟩ | hk
      · rfl
      · rw [(hq hw).1 k] at hk
        cases hk
      · rw [(hq hw').1 j] at hj
        cases hj
      · exact hI.alone j k hj hk
    marked := by
      intro k hk
      rcases QueryPc.waitsAt_concat hk with ⟨-, hw⟩ | hk
      · exact fun _ => (hq hw).2.1
      · exact hI.marked k hk
    result := by
      intro k hk he
      rcases QueryPc.waitsAt_concat hk with ⟨-, hw⟩ | hk
      · rw [(hq hw).2.2] at he
        cases he
      · exact hI.result k hk he
    woken := by
      intro k hk
      rcases getElem?_concat_iff.1 hk with ⟨-, hk⟩ | hk
      · exact absurd hk.symm hwoken
      · exact hI.woken k hk
    set := by
      rintro k hk ⟨i, hi, hlt, hst⟩
      rcases QueryPc.waitsAt_concat hk with ⟨rfl, -⟩ | hk
      · -- its request has not been sent
        obtain ⟨p, hp, -⟩ := hI.asked _ (List.mem_of_getElem? hi)
        exact absurd (List.getElem?_eq_some_iff.1 hp).1 (Nat.lt_irrefl _)
      · exact hI.set k hk ⟨i, hi, hlt, hst⟩
    asked := by
      intro k hk
      obtain ⟨p, hp, hne⟩ := hI.asked k hk
      exact ⟨p, getElem?_concat_iff.2 (.inr hp), hne⟩ }

/-- A call that has sent its question. -/
theorem Waiter.ask (hI : Waiter answer s) {k : Nat} {p : QueryPc} (hk : s.calls[k]? = some p)
    (hp : ∀ timeoutMs, p ≠ .entered timeoutMs) : Waiter answer { s with requests := s.requests ++ [k] } := by
  have hle := hI.handed_le
  exact { hI with
    set := by
      rintro j hj ⟨i, hi, hlt, hst⟩
      rw [List.getElem?_append_left (Nat.lt_of_lt_of_le hlt hle)] at hi
      exact hI.set j hj ⟨i, hi, hlt, hst⟩
    asked := by
      intro j hj
      rcases List.mem_append.1 hj with hj | hj
      · exact hI.asked j hj
      · rw [List.mem_singleton.1 hj]
        exact ⟨p, hk, hp⟩
    handed_le := by
      simp only [List.length_append]
      omega
    storing := by
      intro m hm
      obtain ⟨hne, hm⟩ := hI.storing m hm
      have hpos : 0 < s.handed.length := List.length_pos_iff.2 hne
      have hlt : s.handed.length - 1 < s.requests.length := by omega
      refine ⟨hne, ?_⟩
      rw [List.getElem?_append_left hlt]
      exact hm }

theorem waiter_step (hI : Waiter answer s) (henv : InOrder answer s a) (hin : Undisturbed s a)
    (h : step callback s a = some u) : Waiter answer u := by
  cases step_cases h with
  | entered hq =>
    have hno : ∀ k, QueryPc.waitsAt s.calls k = false := by
      intro k
      cases hk : QueryPc.waitsAt s.calls k with
      | false => rfl
      | true => exact hk.symm.trans (hin hq k (QueryPc.lt_of_waitsAt hk))
    exact (hI.reset hno).join nofun nofun fun _ => ⟨hno, rfl, rfl⟩
  | rejected hq => exact hI.join nofun nofun nofun
  | @sent k timeoutMs hk =>
    have hmove := hI.move hk (q := .waiting timeoutMs) (fun _ => rfl) nofun nofun nofun
    exact hmove.ask ((getElem?_set_iff hk).2 (.inl ⟨rfl, rfl⟩)) nofun
  | unsent hk => exact hI.move hk nofun nofun nofun nofun
  | woken hk he => exact hI.move hk (fun _ => rfl) (fun _ => he) nofun nofun
  | expired hk ht => exact hI.move hk nofun nofun nofun nofun
  | @returned k result hk hr =>
    -- it was woken, so the event is set and no clean-up can hurt
    have hw : QueryPc.waitsAt s.calls k = true := QueryPc.waitsAt_iff.2 ⟨_, hk, rfl⟩
    have hend := hI.cleanup hk (q := .ended) rfl nofun hin
    refine { hend with returns := fun r hr' => ?_ }
    rcases List.mem_append.1 hr' with hr' | hr'
    · exact hI.returns r hr'
    · rw [hI.result k hw (hI.woken k hk), Option.some.injEq] at hr
      rw [List.mem_singleton.1 hr', hr]
  | @noResult k hk hr =>
    have hw : QueryPc.waitsAt s.calls k = true := QueryPc.waitsAt_iff.2 ⟨_, hk, rfl⟩
    rw [hI.result k hw (hI.woken k hk)] at hr
    cases hr
  | timedOut hk => exact hI.cleanup hk rfl nofun hin
  | rethrown hk => exact hI.cleanup hk rfl nofun hin
  | @received data hr =>
    have hlt : s.handed.length < s.requests.length := by
      obtain ⟨k, hk, -⟩ := Option.map_eq_some_iff.1 henv
      exact (List.getElem?_eq_some_iff.1 hk).1
    exact { hI with
      set := by
        rintro k hk ⟨i, hi, hlt', hst⟩
        by_cases he : s.shared.queryEvent = true
        · exact he
        · -- its mark still stands, so the message is going to be stored
          have hmark := hI.marked k hk (Bool.not_eq_true _ ▸ he)
          have hi' := hst data (if_pos hmark)
          simp only [List.length_append, List.length_singleton] at hi'
          exact hI.set k hk ⟨i, hi, by omega, by simp [hr]⟩
      handed_le := by
        simp only [List.length_append, List.length_singleton]
        omega
      storing := by
        intro m hm
        refine ⟨by simp, ?_⟩
        simp only at hm
        split at hm
        · cases hm
          simp only [List.length_append, List.length_singleton, Nat.add_sub_cancel]
          exact henv
        · split at hm <;> cases hm }
  | @stored data hr =>
    exact { hI with
      marked := fun _ _ he => nomatch he
      result := by
        intro k hk _
        obtain ⟨-, hm⟩ := hI.storing data hr
        rw [hin k (QueryPc.lt_of_waitsAt hk) hk] at hm
        exact hm.symm
      woken := fun _ _ => rfl
      set := fun _ _ _ => rfl
      storing := nofun }
  | called hr =>
    exact { hI with
      set := by
        rintro k hk ⟨i, hi, hlt, -⟩
        exact hI.set k hk ⟨i, hi, hlt, by simp [hr]⟩
      storing := nofun }

/-! ## The runs -/

/-- **Every call gets the answer to its own question**, in every run in which the waiting call is left
alone. -/
theorem returns_own_answer {as : List (QuerierAct τ)} {t : Queriers τ}
    (h : (system callback).Runs (fun s a => InOrder answer s a ∧ Undisturbed s a) start as t) :
    OwnAnswers answer t := by
  have hinv : Waiter answer t := by
    apply h.invariant (I := Waiter answer)
    · intro s a u hI hok hstep
      exact waiter_step hI hok.1 hok.2 hstep
    · exact .start
  exact hinv.ownAnswers

/-- Two calls one after the other. A third is refused while the first waits, and one times out. -/
def oneAfterAnother : List (QuerierAct Nat) :=
  [.query (-1), .send 0, .query 10, .receive 0, .store, .wake 0, .finish 0,
    .query 10, .send 2, .timeout 2, .finish 2, .rethrow 2, .receive 2, .callback,
    .query 10, .send 3, .receive 3, .store, .wake 3, .finish 3]

/-- The second call passes the check between the answer to the first and its waking up. -/
def letInEarly : List (QuerierAct Nat) :=
  [.query (-1), .send 0, .receive 0, .store, .query (-1), .send 1, .receive 1, .store, .wake 0, .finish 0]

theorem returns_own_answer_twice : ∃ t : Queriers Nat,
    (system true).Runs (fun s a => InOrder id s a ∧ Undisturbed s a) start oneAfterAnother t ∧
    (t.returns = [(0, 0), (3, 3)] ∧ t.callbacks = [2]) ∧ OwnAnswers id t := by
  obtain ⟨t, hrun, ht⟩ := (system true).exists_run (fun s a => InOrder id s a ∧ Undisturbed s a)
    start oneAfterAnother (fun t => t.returns = [(0, 0), (3, 3)] ∧ t.callbacks = [2]) (by decide +kernel)
  exact ⟨t, hrun, ht, returns_own_answer hrun⟩

/-- The first call returns the answer to the second. -/
theorem answer_of_next_query : ∃ (as : List (QuerierAct Nat)) (t : Queriers Nat),
    (system true).Runs (InOrder id) start as t ∧ t.returns = [(0, 1)] :=
  ⟨letInEarly, System.exists_run _ _ _ _ _ (by decide +kernel)⟩

end Queriers
end KnotLink.CSharp
