import KnotLink.Python.QuerierThreads
/-!
# Whose answer `query` returns

The service answers the requests in order, each once. `_timeout_occurred` is to keep a late answer out
(OpenSocketQuerier.py:19), but the next call of `query` clears it: a call returns its own answer as long as
no earlier one arrives while it is in progress (`own_answer`).
-/
namespace KnotLink.Python.QuerierThreads
open Lib

variable {τ : Type} {cfg : QuerierConfig} {s u : QuerierThreads τ} {a : QuerierAct τ}

/-- One thread calls `query` again and again, nobody disconnects, and what arrives is the answer to the
next request. -/
def OneByOne (answer : Nat → τ) (s : QuerierThreads τ) : QuerierAct τ → Prop
  | .call _ _ => ∀ p ∈ s.calls, p = .ended
  | .recv m => s.requests[s.handed.length]?.map answer = some m
  | .disconnect | .disconnectShared => False
  | _ => True

instance [DecidableEq τ] (answer : Nat → τ) (s : QuerierThreads τ) :
    (a : QuerierAct τ) → Decidable (OneByOne answer s a)
  | .call _ _ => inferInstanceAs (Decidable (∀ p ∈ s.calls, p = .ended))
  | .recv m => inferInstanceAs (Decidable (s.requests[s.handed.length]?.map answer = some m))
  | .disconnect | .disconnectShared => inferInstanceAs (Decidable False)
  | .send _ _ | .wait _ | .timeout _ | .finish _ | .callback | .callbackRaises _ | .lose =>
    inferInstanceAs (Decidable True)

/-- An answer that arrives while a call is in progress is its own. -/
def InTime (cfg : QuerierConfig) (s : QuerierThreads τ) : QuerierAct τ → Prop
  | .recv _ => ∀ k : Fin s.calls.length, s.calls[k].live cfg = true → s.requests[s.handed.length]? = some k.val
  | _ => True

instance (s : QuerierThreads τ) : (a : QuerierAct τ) → Decidable (InTime cfg s a)
  | .recv _ => inferInstanceAs (Decidable (∀ _ : Fin s.calls.length, _))
  | .call _ _ | .send _ _ | .wait _ | .timeout _ | .finish _ | .callback | .callbackRaises _ | .lose | .disconnect
  | .disconnectShared =>
    inferInstanceAs (Decidable True)

/-- A call that is to return something will return its own answer. -/
structure OwnAnswer (cfg : QuerierConfig) (answer : Nat → τ) (s : QuerierThreads τ) : Prop where
  result : ∀ (k : Nat) (p : Pc), s.calls[k]? = some p → p.live cfg = true →
    p = .woken ∨ s.shared.queryEvent = true → s.shared.queryResult = some (answer k)
  returns : ∀ r ∈ s.returns, r.2 = some (answer r.1)

/-- A call that moves on without touching the shared fields. -/
theorem OwnAnswer.move {answer : Nat → τ} (hI : OwnAnswer cfg answer s) {k : Nat} {p q : Pc}
    (hk : s.calls[k]? = some p) (hp : q.live cfg = true → p.live cfg = true)
    (hq : q.live cfg = true → q = .woken ∨ s.shared.queryEvent = true → p = .woken ∨ s.shared.queryEvent = true) :
    ∀ (j : Nat) (r : Pc), (s.calls.set k q)[j]? = some r → r.live cfg = true →
      r = .woken ∨ s.shared.queryEvent = true → s.shared.queryResult = some (answer j) := by
  intro j r hj hr hw
  rcases (getElem?_set_iff hk).1 hj with ⟨rfl, rfl⟩ | ⟨-, hj⟩
  · exact hI.result j p hk (hp hr) (hq hr hw)
  · exact hI.result j r hj hr hw

theorem ownAnswer_step {answer : Nat → τ} (hI : OwnAnswer cfg answer s) (henv : OneByOne answer s a)
    (hin : InTime cfg s a) (h : step cfg s a = some u) : OwnAnswer cfg answer u := by
  cases step_cases h with
  | call data timed =>
    refine ⟨?_, hI.returns⟩
    intro k p hk hp hw
    rcases getElem?_concat_iff.1 hk with ⟨-, rfl⟩ | hk
    · rcases hw with hw | hw <;> cases hw
    · rw [henv p (List.mem_of_getElem? hk)] at hp
      cases hp
  | sent hk he => exact ⟨hI.move hk (fun _ => Pc.live_begun he) (fun _ hw => hw.imp (by simp) id), hI.returns⟩
  | raised hk he => exact ⟨hI.move hk (by simp [Pc.live]) (by simp [Pc.live]), hI.returns⟩
  | passed hk he => exact ⟨hI.move hk (fun _ => rfl) (fun _ _ => .inr he), hI.returns⟩
  | blocked hk he => exact ⟨hI.move hk (fun _ => rfl) (fun _ hw => hw.imp (by simp) id), hI.returns⟩
  | timeout hk => exact ⟨hI.move hk (fun _ => rfl) (by simp [Pc.live]), hI.returns⟩
  | returned hk =>
    have hres := hI.result _ _ hk rfl (.inl rfl)
    refine ⟨hI.move hk (fun _ => rfl) (by simp [Pc.live]), ?_⟩
    intro r hr
    rcases List.mem_append.1 hr with hr | hr
    · exact hI.returns r hr
    · rw [List.mem_singleton.1 hr]
      exact hres
  | timedOut hk =>
    refine ⟨?_, hI.returns⟩
    intro j r hj hr hw
    rcases (getElem?_set_iff hk).1 hj with ⟨-, rfl⟩ | ⟨-, hj⟩
    · cases hr
    · exact hI.result j r hj hr hw
  | stored hr hc hq ht =>
    refine ⟨?_, hI.returns⟩
    intro k p hk hp _
    rw [List.getElem?_map, Option.map_eq_some_iff] at hk
    obtain ⟨p, hk, rfl⟩ := hk
    rw [Pc.live_wake] at hp
    -- the one call in progress takes the answer to its own request
    obtain ⟨hlt, rfl⟩ := List.getElem?_eq_some_iff.1 hk
    have hown := hin ⟨k, hlt⟩ hp
    simp only [OneByOne, hown, Option.map_some, Option.some.injEq] at henv
    rw [henv]
  | passedOn hr hc hn => exact ⟨hI.result, hI.returns⟩
  | callback hc => exact ⟨hI.result, hI.returns⟩
  | callbackRaised hc => exact ⟨hI.result, hI.returns⟩
  | lose hr hc => exact ⟨hI.result, hI.returns⟩
  | disconnect => exact henv.elim
  | disconnectShared hn => exact henv.elim

/-- **Every call returns the answer to its own question**, in every run in which no answer to an earlier one
arrives while it is in progress. -/
theorem own_answer {client : TcpClient} {receiving : Bool} {answer : Nat → τ} {as : List (QuerierAct τ)}
    {t : QuerierThreads τ}
    (h : (system cfg).Runs (fun s a => OneByOne answer s a ∧ InTime cfg s a) (start client receiving) as t) :
    ∀ r ∈ t.returns, r.2 = some (answer r.1) := by
  have hinv : OwnAnswer cfg answer t := by
    apply h.invariant (I := OwnAnswer cfg answer)
    · intro s a u hI hok hstep
      exact ownAnswer_step hI hok.1 hok.2 hstep
    · exact ⟨by simp [start], by simp [start]⟩
  exact hinv.returns

/-- A first call times out, its answer comes before the second call. -/
def lateBetween : List (QuerierAct Nat) :=
  [.call (str "a") true, .send 0 .ok, .wait 0, .timeout 0, .finish 0, .recv 0,
    .call (str "b") false, .send 1 .ok, .wait 1, .recv 1, .finish 1]

/-- The same, but the answer comes while the second call waits. -/
def lateDuring : List (QuerierAct Nat) :=
  [.call (str "a") true, .send 0 .ok, .wait 0, .timeout 0, .finish 0,
    .call (str "b") false, .send 1 .ok, .wait 1, .recv 0, .finish 1]

theorem own_answer_between : ∃ t : QuerierThreads Nat,
    (system ⟨none, none, false⟩).Runs (fun s a => OneByOne id s a ∧ InTime ⟨none, none, false⟩ s a) (start .fresh true)
      lateBetween t ∧
    t.returns = [(1, some 1)] ∧ ∀ r ∈ t.returns, r.2 = some (id r.1) := by
  obtain ⟨t, hrun, ht⟩ := (system ⟨none, none, false⟩).exists_run
    (fun s a => OneByOne id s a ∧ InTime ⟨none, none, false⟩ s a) (start .fresh true) lateBetween
    (fun t => t.returns = [(1, some 1)]) (by decide +kernel)
  exact ⟨t, hrun, ht, own_answer hrun⟩

/-- The second call returns the answer to the first. -/
theorem late_answer_returned : ∃ (as : List (QuerierAct Nat)) (t : QuerierThreads Nat),
    (system ⟨none, none, false⟩).Runs (OneByOne id) (start .fresh true) as t ∧ t.returns = [(1, some 0)] :=
  ⟨lateDuring, System.exists_run _ _ _ _ _ (by decide +kernel)⟩

end KnotLink.Python.QuerierThreads
