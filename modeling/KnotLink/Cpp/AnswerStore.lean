import Mathlib.Data.List.Perm.Subperm
import KnotLink.Cpp.Querier
/-!
# What stays in `answers_`

`handleReceivedData` stores every message under the number that was printed last, whether or not the call that
printed it still waits (OpenSocketQuerier.hpp:70-75), and an entry goes only when its call returns
(OpenSocketQuerier.hpp:57). So `answers_` holds answers for calls under way and nothing else exactly if every message
comes while the last caller waits (`tidy_throughout_iff`). A message before the first call, a second one, or one that
is late for its call stays for good, and each call that times out can leave one behind (`answers_grow`).
-/
namespace KnotLink.Cpp
open Lib

/-- The number of a call that has neither returned nor thrown. -/
def QueryPc.qid? : QueryPc → Option Nat
  | .waiting qid _ => some qid
  | .returned _ | .timedOut _ => none

namespace OpenSocketQuerier

variable {cfg : QuerierConfig} {s u : OpenSocketQuerier} {a : QuerierAct}

/-- The numbers of the calls under way. -/
def waiting (s : OpenSocketQuerier) : List Nat := s.calls.filterMap QueryPc.qid?

/-- Every key of `answers_` is the number of a call under way: there are no more entries than calls, and none when no
call is under way. -/
structure Tidy (s : OpenSocketQuerier) : Prop where
  keys : ∀ e ∈ s.answers.entries, e.1 ∈ s.waiting
  bounded : s.answers.entries.length ≤ s.waiting.length
  empty : s.waiting = [] → s.answers.entries = []

/-- A message comes while the call that printed the last number waits. -/
def Awaited (s : OpenSocketQuerier) : QuerierAct → Prop
  | .handleReceivedData _ => s.questionCounter ∈ s.waiting
  | _ => True

instance (s : OpenSocketQuerier) : (a : QuerierAct) → Decidable (Awaited s a)
  | .handleReceivedData _ => inferInstanceAs (Decidable (_ ∈ _))
  | .call .. | .wake _ | .timeout _ => inferInstanceAs (Decidable True)

theorem mem_waiting {qid : Nat} : qid ∈ s.waiting ↔ ∃ p ∈ s.calls, p.qid? = some qid := List.mem_filterMap

/-- The keys say it all: no key is there twice. -/
theorem tidy_iff : Tidy s ↔ ∀ qid ans, s.answers.get? qid = some ans → qid ∈ s.waiting := by
  constructor
  · intro h qid ans hans
    exact h.keys (qid, ans) (Dict.get?_eq_some.1 hans)
  · intro h
    have hkeys : ∀ e ∈ s.answers.entries, e.1 ∈ s.waiting := fun e he => h e.1 e.2 (Dict.get?_eq_some.2 he)
    have hlen : s.answers.entries.length ≤ s.waiting.length := by
      have hsub : s.answers.entries.map Prod.fst ⊆ s.waiting := by
        intro qid hq
        obtain ⟨e, he, rfl⟩ := List.mem_map.1 hq
        exact hkeys e he
      simpa using (List.Nodup.subperm s.answers.nodup hsub).length_le
    refine ⟨hkeys, hlen, fun hnone => ?_⟩
    rw [hnone] at hlen
    exact List.length_eq_zero_iff.1 (Nat.le_zero.1 hlen)

/-! ## One step -/

/-- Another number is still waited for when call `k` is over. -/
theorem mem_waiting_set {k qid qid' : Nat} {timeoutMs : Int} (hk : s.calls[k]? = some (.waiting qid timeoutMs))
    (hne : qid' ≠ qid) (h : qid' ∈ s.waiting) (p : QueryPc) : qid' ∈ (s.calls.set k p).filterMap QueryPc.qid? := by
  refine List.mem_filterMap.2 (exists_mem_set hk (fun hq => ?_) (mem_waiting.1 h))
  exact absurd (Option.some.inj hq).symm hne

theorem tidy_step (hP : Tidy s) (h : Step cfg s a u) : Tidy u ↔ Awaited s a := by
  rw [tidy_iff] at hP ⊢
  cases h with
  | found ha =>
    refine iff_of_true (fun qid ans hans => ?_) trivial
    rw [Dict.get?_erase] at hans
    split at hans
    · cases hans
    · rw [waiting, List.filterMap_append]
      exact List.mem_append_left _ (hP qid ans hans)
  | blocked ha =>
    refine iff_of_true (fun qid ans hans => ?_) trivial
    rw [waiting, List.filterMap_append]
    exact List.mem_append_left _ (hP qid ans hans)
  | @stored data =>
    constructor
    · intro hu
      exact hu s.questionCounter data (by rw [Dict.get?_insert, if_pos rfl])
    · intro hwait qid ans hans
      rw [Dict.get?_insert] at hans
      split at hans
      · rename_i hq
        rw [hq]
        exact hwait
      · exact hP qid ans hans
  | @wake k qid timeoutMs ans hk ha =>
    refine iff_of_true (fun qid' ans' hans => ?_) trivial
    rw [Dict.get?_erase] at hans
    split at hans
    · cases hans
    · rename_i hne
      exact mem_waiting_set hk hne (hP qid' ans' hans) _
  | @timeout k qid timeoutMs hk ht ha =>
    refine iff_of_true (fun qid' ans' hans => ?_) trivial
    have hne : qid' ≠ qid := by
      rintro rfl
      rw [ha] at hans
      cases hans
    exact mem_waiting_set hk hne (hP qid' ans' hans) _

/-- **`answers_` is tidy throughout a run exactly if** every message comes while the last caller waits. -/
theorem tidy_throughout_iff {as : List QuerierAct} {t : OpenSocketQuerier}
    (h : (system cfg).Runs (fun _ _ => True) start as t) :
    (system cfg).Throughout Tidy start as ↔ (system cfg).Runs Awaited start as t :=
  h.throughout_iff_runs (I := fun _ => True) (fun _ hP hst => ⟨trivial, tidy_step hP (step_cases hst)⟩) trivial
    (tidy_iff.2 nofun)

/-- Two callers wait and the second gets the message; a third one times out. -/
def awaitedMessages : List QuerierAct := [.call [1] (-1) true, .call [2] 50 true, .handleReceivedData [0x41], .wake 1,
  .call [3] 50 true, .timeout 2, .call [4] (-1) true, .handleReceivedData [0x42], .wake 3]

theorem tidy_throughout_iff_awaited : ∃ t, (system ⟨[], []⟩).Runs Awaited start awaitedMessages t ∧ t.waiting = [1] ∧
    (system ⟨[], []⟩).Throughout Tidy start awaitedMessages := by
  obtain ⟨t, hrun, ht⟩ := (system ⟨[], []⟩).exists_run Awaited start awaitedMessages (fun t => t.waiting = [1])
    (by decide +kernel)
  exact ⟨t, hrun, ht, (tidy_throughout_iff (hrun.mono fun _ _ _ => trivial)).2 hrun⟩

/-- A message before the first call and one behind a timeout: no call is under way, and both stay. -/
theorem answers_left_behind : ∃ as t, (system ⟨[], []⟩).Runs (fun _ _ => True) start as t ∧ t.waiting = [] ∧
    t.answers.entries = [(0, [0x41]), (1, [0x42])] ∧ ¬ Tidy t := by
  obtain ⟨t, hrun, hwait, hentries⟩ := (system ⟨[], []⟩).exists_run (fun _ _ => True) start
    [.handleReceivedData [0x41], .call [1] 50 true, .timeout 0, .handleReceivedData [0x42]]
    (fun t => t.waiting = [] ∧ t.answers.entries = [(0, [0x41]), (1, [0x42])]) (by decide +kernel)
  refine ⟨_, t, hrun, hwait, hentries, fun h => ?_⟩
  have hnone := h.empty hwait
  rw [hentries] at hnone
  cases hnone

/-! ## How much can stay -/

/-- No call is under way, and what lies in `answers_` are the late answers of the `n` calls so far. -/
structure LeftBehind (n : Nat) (s : OpenSocketQuerier) : Prop where
  waiting : s.waiting = []
  counter : s.questionCounter = n
  entries : s.answers.entries.length = n
  keys : ∀ e ∈ s.answers.entries, e.1 ≤ n

/-- A call that times out, and its answer behind it. -/
theorem leftBehind_next (cfg : QuerierConfig) {n : Nat} (h : LeftBehind n s) (hn : n + 1 < 2 ^ 64)
    (question data : Bytes) :
    ∃ u, (system cfg).Runs (fun _ _ => True) s
      [.call question 0 true, .timeout s.calls.length, .handleReceivedData data] u ∧ LeftBehind (n + 1) u := by
  have hqid : s.nextQid = n + 1 := by rw [nextQid, h.counter, Nat.mod_eq_of_lt hn]
  have hfresh : n + 1 ∉ s.answers.entries.map Prod.fst := by
    intro hmem
    obtain ⟨e, he, hkey⟩ := List.mem_map.1 hmem
    have := h.keys e he
    omega
  have hnone : s.answers.get? (n + 1) = none := by
    rw [Option.eq_none_iff_forall_not_mem]
    intro ans hans
    exact hfresh (List.mem_map.2 ⟨(n + 1, ans), Dict.get?_eq_some.1 hans, rfl⟩)
  let called : OpenSocketQuerier := { s with
    questionCounter := n + 1
    calls := s.calls ++ [.waiting (n + 1) 0]
    requests := s.requests ++ [(s.calls.length, packet cfg question)] }
  let timedOut : OpenSocketQuerier := { called with calls := s.calls ++ [.timedOut 0] }
  have hcall : (system cfg).step s (.call question 0 true) = some called := by
    simp [system, step, hqid, hnone, called]
  have htimeout : (system cfg).step called (.timeout s.calls.length) = some timedOut := by
    simp [system, step, hnone, called, timedOut]
  refine ⟨_, .cons trivial hcall (.cons trivial htimeout (.cons trivial rfl .nil)), ?_, rfl, ?_, ?_⟩
  · have hwait := h.waiting
    rw [OpenSocketQuerier.waiting] at hwait ⊢
    simp [timedOut, hwait, QueryPc.qid?]
  · have hins : (s.answers.insert (n + 1) data).entries = s.answers.entries ++ [(n + 1, data)] :=
      Dict.insertEntry_of_not_mem data hfresh
    simp [timedOut, called, hins, h.entries]
  · intro e he
    rcases Dict.mem_insertEntry he with rfl | he
    · exact Nat.le_refl _
    · exact Nat.le_succ_of_le (h.keys e he)

/-- **The store grows with every late answer**, as far as the counter counts: no call is under way in the end. -/
theorem answers_grow (cfg : QuerierConfig) {n : Nat} (hn : n < 2 ^ 64) :
    ∃ as t, (system cfg).Runs (fun _ _ => True) start as t ∧ t.waiting = [] ∧ t.answers.entries.length = n := by
  have hrun : ∃ as t, (system cfg).Runs (fun _ _ => True) start as t ∧ LeftBehind n t := by
    induction n with
    | zero => exact ⟨[], start, .nil, rfl, rfl, rfl, nofun⟩
    | succ n ih =>
      obtain ⟨as, t, hrun, ht⟩ := ih (Nat.lt_of_succ_lt hn)
      obtain ⟨u, hnext, hu⟩ := leftBehind_next cfg ht hn [] []
      exact ⟨_, u, hrun.append hnext, hu⟩
  obtain ⟨as, t, hrun, ht⟩ := hrun
  exact ⟨as, t, hrun, ht.waiting, ht.entries⟩

end OpenSocketQuerier
end KnotLink.Cpp
