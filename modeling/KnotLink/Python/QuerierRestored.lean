import KnotLink.Python.DeadConnection
/-!
# What `query` leaves behind

`is_querying` is set in the first critical section of `query` and cleared in the second one
(OpenSocketQuerier.py:41 and 46). What `_query` raises between the two goes past the second: the flag stays set with
nobody waiting, and the messages that come go into `query_result` instead of to the callback. Throughout a run the flag
is down whenever no call is under way exactly if no call that finds itself alone raises there
(`restored_throughout_iff`).

Besides the steps of `DeadConnection.lean` the configuration and the callback may be set at any time.
-/
namespace KnotLink.Python
open Lib

structure ConfiguredQuerier (τ : Type) where
  cfg : QuerierConfig
  threads : QuerierThreads τ
  deriving DecidableEq, Repr

inductive ConfiguredAct (τ : Type) where
  | connection (a : ConnectionAct τ)
  /-- `set_config` (OpenSocketQuerier.py:27). -/
  | setConfig (APPID OpenSocketID : PyStr)
  /-- `set_RecvFunc` (OpenSocketQuerier.py:73). -/
  | setRecvFunc
  deriving DecidableEq, Repr

namespace ConfiguredQuerier
variable {τ : Type} {s u : ConfiguredQuerier τ} {a : ConfiguredAct τ}

def start (cfg : QuerierConfig) (client : TcpClient) (receiving : Bool) : ConfiguredQuerier τ :=
  ⟨cfg, .start client receiving⟩

def step (s : ConfiguredQuerier τ) : ConfiguredAct τ → Option (ConfiguredQuerier τ)
  | .connection a => (QuerierThreads.connectionStep s.cfg s.threads a).map fun threads => { s with threads }
  | .setConfig APPID OpenSocketID =>
    some { s with cfg := { s.cfg with appID := some APPID, openSocketID := some OpenSocketID } }
  | .setRecvFunc => some { s with cfg := { s.cfg with callback := true } }

def system : System (ConfiguredQuerier τ) (ConfiguredAct τ) := ⟨step⟩

/-- No call of `query` is under way. -/
def Idle (calls : List Pc) : Prop := ∀ p ∈ calls, p = .ended

instance (calls : List Pc) : Decidable (Idle calls) := inferInstanceAs (Decidable (∀ _ ∈ _, _))

/-- When no call is under way `is_querying` is down, and a message that comes now goes to the callback. -/
structure Restored (s : ConfiguredQuerier τ) : Prop where
  isQuerying : Idle s.threads.calls → s.threads.shared.isQuerying = false
  toCallback : Idle s.threads.calls → ∀ m u, step s (.connection (.querier (.recv m))) = some u →
    u.threads.shared = s.threads.shared ∧ u.threads.calling = if s.cfg.callback then some m else none

/-- A call raises in `_query` only while another one is under way or the flag is down. -/
def Company (s : ConfiguredQuerier τ) : ConfiguredAct τ → Prop
  | .connection (.querier (.send k _)) => ∀ p ∈ s.threads.calls[k]?, p.refused s.cfg s.threads.client = true →
      Idle (s.threads.calls.set k .ended) → s.threads.shared.isQuerying = false
  | _ => True

/-- A message goes to the callback when nobody is querying. -/
theorem restored_iff : Restored s ↔ (Idle s.threads.calls → s.threads.shared.isQuerying = false) := by
  refine ⟨Restored.isQuerying, fun h => ⟨h, fun hidle m u hstep => ?_⟩⟩
  obtain ⟨t, ht, rfl⟩ := Option.map_eq_some_iff.1 hstep
  have hrecv : QuerierThreads.step s.cfg s.threads (.recv m) = some t := ht
  cases QuerierThreads.step_cases hrecv with
  | stored hr hc hq =>
    rw [h hidle] at hq
    cases hq
  | passedOn hr hc hn => exact ⟨rfl, rfl⟩

theorem idle_wake {calls : List Pc} (h : Idle (calls.map Pc.wake)) : Idle calls := by
  intro p hp
  have hw := h p.wake (List.mem_map_of_mem hp)
  cases p with
  | ended => rfl
  | begun data timed | sent timed | waiting timed | woken | expired => cases hw

/-- A call that has moved on is under way. -/
theorem not_idle_set {calls : List Pc} {k : Nat} {p q : Pc} (hk : calls[k]? = some p) (hq : q ≠ .ended) :
    ¬ Idle (calls.set k q) :=
  fun h => hq (h q (List.mem_of_getElem? ((getElem?_set_iff hk).2 (.inl ⟨rfl, rfl⟩))))

/-- A step that leaves no call under way which was none before, and the flag as it is. -/
theorem Restored.keep (hP : Restored s) (hidle : Idle u.threads.calls → Idle s.threads.calls)
    (hflag : u.threads.shared.isQuerying = s.threads.shared.isQuerying) : Restored u :=
  restored_iff.2 fun h => hflag.trans (hP.isQuerying (hidle h))

theorem restored_of_busy (h : ¬ Idle u.threads.calls) : Restored u := restored_iff.2 fun hidle => absurd hidle h

theorem restored_querier {a : QuerierAct τ} {t : QuerierThreads τ} (hP : Restored s)
    (h : QuerierThreads.step s.cfg s.threads a = some t) :
    Restored { s with threads := t } ↔ Company s (.connection (.querier a)) := by
  cases QuerierThreads.step_cases h with
  | call data timed =>
    refine iff_of_true (restored_of_busy fun hidle => ?_) trivial
    cases hidle (.begun data timed) (by simp)
  | @sent k data timed net c hk he =>
    refine iff_of_true (restored_of_busy (not_idle_set hk nofun)) fun p hp href => ?_
    obtain rfl : .begun data timed = p := Option.some.inj (hk.symm.trans hp)
    exact absurd ((sendQuery_returned he).1.symm.trans href) (by simp)
  | @raised k data timed net c e hk he =>
    refine restored_iff.trans ⟨fun hu p _ _ hidle => hu hidle, fun hcond hidle => ?_⟩
    exact hcond (.begun data timed) (by simp [hk]) (sendQuery_raised he).2 hidle
  | passed hk => exact iff_of_true (restored_of_busy (not_idle_set hk nofun)) trivial
  | blocked hk => exact iff_of_true (restored_of_busy (not_idle_set hk nofun)) trivial
  | timeout hk => exact iff_of_true (restored_of_busy (not_idle_set hk nofun)) trivial
  | returned hk => exact iff_of_true (restored_iff.2 fun _ => rfl) trivial
  | timedOut hk => exact iff_of_true (restored_iff.2 fun _ => rfl) trivial
  | stored => exact iff_of_true (hP.keep idle_wake rfl) trivial
  | passedOn => exact iff_of_true (hP.keep id rfl) trivial
  | callback => exact iff_of_true (hP.keep id rfl) trivial
  | callbackRaised => exact iff_of_true (hP.keep id rfl) trivial
  | lose => exact iff_of_true (hP.keep id rfl) trivial
  | disconnect => exact iff_of_true (hP.keep id rfl) trivial
  | disconnectShared => exact iff_of_true (hP.keep idle_wake rfl) trivial

theorem restored_step (hP : Restored s) (h : step s a = some u) : Restored u ↔ Company s a := by
  cases a with
  | setConfig APPID OpenSocketID =>
    cases h
    exact iff_of_true (hP.keep id rfl) trivial
  | setRecvFunc =>
    cases h
    exact iff_of_true (hP.keep id rfl) trivial
  | connection a =>
    obtain ⟨t, ht, rfl⟩ := Option.map_eq_some_iff.1 h
    cases a with
    | querier a => exact restored_querier hP ht
    | queryAsync data net =>
      cases ht
      exact iff_of_true (hP.keep id rfl) trivial
    | heartBeat net =>
      cases ht
      exact iff_of_true (hP.keep id rfl) trivial
    | badFrame =>
      simp only [QuerierThreads.connectionStep] at ht
      split at ht <;> cases ht
      exact iff_of_true (hP.keep id rfl) trivial

/-- **`query` restores its state, throughout a run, exactly if** no call raises in `_query` that has no company, unless
the flag is down already. -/
theorem restored_throughout_iff {cfg : QuerierConfig} {client : TcpClient} {receiving : Bool}
    {as : List (ConfiguredAct τ)} {t : ConfiguredQuerier τ}
    (h : system.Runs (fun _ _ => True) (start cfg client receiving) as t) :
    system.Throughout Restored (start cfg client receiving) as ↔
      system.Runs Company (start cfg client receiving) as t :=
  h.throughout_iff_runs (I := fun _ => True) (fun _ hP hst => ⟨trivial, restored_step hP hst⟩) trivial
    (restored_iff.2 fun _ => rfl)

/-- A question with a lone surrogate, which `encode` refuses. -/
def unsendable : PyStr := [.surrogate 0]

/-- It raises while another call waits, which then gets its answer. -/
def raisesInCompany : List (ConfiguredAct Nat) := [.setRecvFunc, .connection (.querier (.call (str "a") false)),
  .connection (.querier (.send 0 .ok)), .connection (.querier (.wait 0)), .connection (.querier (.call unsendable false)),
  .connection (.querier (.send 1 .ok)), .connection (.querier (.recv 7)), .connection (.querier (.finish 0)),
  .connection (.querier (.recv 8)), .connection (.querier .callback)]

instance (s : ConfiguredQuerier τ) : (a : ConfiguredAct τ) → Decidable (Company s a)
  | .connection (.querier (.send _ _)) => inferInstanceAs (Decidable (∀ _ ∈ _, _ → _ → _))
  | .connection (.querier (.call _ _)) | .connection (.querier (.wait _)) | .connection (.querier (.timeout _))
  | .connection (.querier (.finish _)) | .connection (.querier (.recv _)) | .connection (.querier .callback)
  | .connection (.querier (.callbackRaises _)) | .connection (.querier .lose) | .connection (.querier .disconnect)
  | .connection (.querier .disconnectShared)
  | .connection (.queryAsync _ _) | .connection (.heartBeat _) | .connection .badFrame | .setConfig _ _ | .setRecvFunc =>
    inferInstanceAs (Decidable True)

theorem restored_throughout_iff_company : ∃ t,
    system.Runs Company (start ⟨none, none, false⟩ .fresh true) raisesInCompany t ∧ t.threads.callbacks = [8] ∧
    system.Throughout Restored (start ⟨none, none, false⟩ .fresh true) raisesInCompany := by
  obtain ⟨t, hrun, ht⟩ := system.exists_run Company (start ⟨none, none, false⟩ .fresh true) raisesInCompany
    (fun t => t.threads.callbacks = [8]) (by decide +kernel)
  exact ⟨t, hrun, ht, (restored_throughout_iff (hrun.mono fun _ _ _ => trivial)).2 hrun⟩

/-- It raises alone: no call is under way, the flag is up, and the message that comes does not reach the callback. -/
theorem message_swallowed : ∃ (as : List (ConfiguredAct Nat)) (t : ConfiguredQuerier Nat),
    system.Runs (fun _ _ => True) (start ⟨none, none, true⟩ .fresh true) as t ∧ ¬ Restored t ∧
      ∃ u, step t (.connection (.querier (.recv 7))) = some u ∧ u.threads.calling = none ∧
        u.threads.shared.queryResult = some 7 := by
  obtain ⟨t, hrun, hidle, hflag, u, hu, hcalling, hresult⟩ := system.exists_run (fun _ _ => True)
    (start ⟨none, none, true⟩ .fresh true : ConfiguredQuerier Nat)
    [.connection (.querier (.call unsendable false)), .connection (.querier (.send 0 .ok))]
    (fun t => Idle t.threads.calls ∧ t.threads.shared.isQuerying = true ∧
      ∃ u ∈ step t (.connection (.querier (.recv 7))), u.threads.calling = none ∧ u.threads.shared.queryResult = some 7)
    (by decide +kernel)
  refine ⟨_, t, hrun, fun h => ?_, u, hu, hcalling, hresult⟩
  rw [h.isQuerying hidle] at hflag
  cases hflag

end ConfiguredQuerier
end KnotLink.Python
