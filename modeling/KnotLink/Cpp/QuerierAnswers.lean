import KnotLink.Cpp.Querier
import Mathlib.Logic.Function.Basic
/-!
# Whose answer a call of `query_l` returns

The service answers each request once and in the order of the requests. An answer goes to the number that was
printed last, so it reaches its own call exactly if no call has taken the lock since that still waits.
-/
namespace KnotLink.Cpp.OpenSocketQuerier
open Lib

variable {cfg : QuerierConfig} {answer : Nat → Bytes} {s u : OpenSocketQuerier} {a : QuerierAct}

/-- What arrives is the answer to the next request written. -/
def InOrder (answer : Nat → Bytes) (s : OpenSocketQuerier) : QuerierAct → Prop
  | .handleReceivedData data => s.requests[s.handed.length]?.map (fun r => answer r.1) = some data
  | _ => True

instance (answer : Nat → Bytes) (s : OpenSocketQuerier) : (a : QuerierAct) → Decidable (InOrder answer s a)
  | .handleReceivedData data =>
    inferInstanceAs (Decidable (s.requests[s.handed.length]?.map (fun r => answer r.1) = some data))
  | .call .. | .wake _ | .timeout _ => inferInstanceAs (Decidable True)

/-- The number a call waits for. -/
def waitsFor? (s : OpenSocketQuerier) (k : Nat) : Option Nat :=
  match s.calls[k]? with
  | some (.waiting qid _) => some qid
  | _ => none

/-- An answer arrives when the calls that wait for the current number are the one it answers, and a new call
finds nothing under its number. -/
def Matching (s : OpenSocketQuerier) : QuerierAct → Prop
  | .call .. => s.answers.get? s.nextQid = none
  | .handleReceivedData _ => ∀ k < s.calls.length, s.waitsFor? k = some s.questionCounter →
      s.requests[s.handed.length]?.map Prod.fst = some k
  | _ => True

instance (s : OpenSocketQuerier) : (a : QuerierAct) → Decidable (Matching s a)
  | .call .. => inferInstanceAs (Decidable (s.answers.get? s.nextQid = none))
  | .handleReceivedData _ => inferInstanceAs (Decidable (∀ k < s.calls.length, s.waitsFor? k = some s.questionCounter →
      s.requests[s.handed.length]?.map Prod.fst = some k))
  | .wake _ | .timeout _ => inferInstanceAs (Decidable True)

/-- Every call that has returned has returned the answer to its own question. -/
def Own (answer : Nat → Bytes) (s : OpenSocketQuerier) : Prop :=
  ∀ k ans, s.calls[k]? = some (.returned ans) → ans = answer k

/-- So has every call that has returned or can return now. -/
def OwnNow (cfg : QuerierConfig) (answer : Nat → Bytes) (s : OpenSocketQuerier) : Prop :=
  Own answer s ∧ ∀ k u, step cfg s (.wake k) = some u → Own answer u

/-! ## Answers that wait for their calls -/

/-- What lies under the number of a waiting call is its own answer. -/
def Ready (answer : Nat → Bytes) (s : OpenSocketQuerier) : Prop :=
  ∀ k qid timeoutMs ans, s.calls[k]? = some (.waiting qid timeoutMs) → s.answers.get? qid = some ans → ans = answer k

/-- Requests are those of calls, and answers are answers to calls. -/
structure Stored (answer : Nat → Bytes) (s : OpenSocketQuerier) : Prop where
  requests : ∀ r ∈ s.requests, r.1 < s.calls.length
  answers : ∀ qid ans, s.answers.get? qid = some ans → ∃ k < s.calls.length, ans = answer k

theorem waitsFor?_eq_some {k qid : Nat} :
    s.waitsFor? k = some qid ↔ ∃ timeoutMs, s.calls[k]? = some (.waiting qid timeoutMs) := by
  unfold waitsFor?
  cases hk : s.calls[k]? with
  | none => simp
  | some p => cases p <;> simp

theorem ownNow_iff : OwnNow cfg answer s ↔ Own answer s ∧ Ready answer s := by
  refine and_congr_right fun hown => ⟨fun h k qid timeoutMs ans hk ha => ?_, fun h k u hu => ?_⟩
  · have hstep : step cfg s (.wake k) = some { s with
        answers := s.answers.erase qid, calls := s.calls.set k (.returned ans) } := by
      simp [step, hk, ha]
    exact h k _ hstep k ans ((getElem?_set_iff hk).2 (.inl ⟨rfl, rfl⟩))
  · cases step_cases hu with
    | wake hk ha =>
      intro j ans hj
      rcases (getElem?_set_iff hk).1 hj with ⟨rfl, hans⟩ | ⟨-, hj⟩
      · cases hans
        exact h _ _ _ _ hk ha
      · exact hown j ans hj

theorem erase_some {qid qid' : Nat} {ans : Bytes} (h : (s.answers.erase qid).get? qid' = some ans) :
    s.answers.get? qid' = some ans := by
  rw [Dict.get?_erase] at h
  split at h
  · cases h
  · exact h

/-! ## One step -/

/-- A step that meets the condition mixes no answers up. -/
theorem own_step (hown : Own answer s) (hready : Ready answer s) (hok : InOrder answer s a) (hm : Matching s a)
    (h : Step cfg s a u) : Own answer u ∧ Ready answer u := by
  cases h with
  | found ha =>
    rw [Matching, ha] at hm
    cases hm
  | blocked ha =>
    constructor
    · intro k ans hk
      rcases getElem?_concat_iff.1 hk with ⟨-, hnew⟩ | hk
      · cases hnew
      · exact hown k ans hk
    · intro k qid timeoutMs ans hk hans
      rcases getElem?_concat_iff.1 hk with ⟨-, hnew⟩ | hk
      · cases hnew
        rw [ha] at hans
        cases hans
      · exact hready k qid timeoutMs ans hk hans
  | @stored data =>
    refine ⟨hown, fun k qid timeoutMs ans hk hans => ?_⟩
    rw [Dict.get?_insert] at hans
    by_cases hq : qid = s.questionCounter
    · rw [if_pos hq] at hans
      cases hans
      have hlt : k < s.calls.length := (List.getElem?_eq_some_iff.1 hk).1
      obtain ⟨r, hr, hrk⟩ := Option.map_eq_some_iff.1 (hm k hlt (hq ▸ waitsFor?_eq_some.2 ⟨timeoutMs, hk⟩))
      rw [InOrder, hr] at hok
      cases hok
      exact congrArg answer hrk
    · rw [if_neg hq] at hans
      exact hready k qid timeoutMs ans hk hans
  | @wake k qid timeoutMs ans hk ha =>
    constructor
    · intro j ans' hj
      rcases (getElem?_set_iff hk).1 hj with ⟨rfl, hans⟩ | ⟨-, hj⟩
      · cases hans
        exact hready _ _ _ _ hk ha
      · exact hown j ans' hj
    · intro j qid' timeoutMs' ans' hj hans
      rcases (getElem?_set_iff hk).1 hj with ⟨-, hnew⟩ | ⟨-, hj⟩
      · cases hnew
      · exact hready j qid' timeoutMs' ans' hj (erase_some hans)
  | @timeout k qid timeoutMs hk =>
    constructor
    · intro j ans hj
      rcases (getElem?_set_iff hk).1 hj with ⟨-, hnew⟩ | ⟨-, hj⟩
      · cases hnew
      · exact hown j ans hj
    · intro j qid' timeoutMs' ans hj hans
      rcases (getElem?_set_iff hk).1 hj with ⟨-, hnew⟩ | ⟨-, hj⟩
      · cases hnew
      · exact hready j qid' timeoutMs' ans hj hans

/-- A step that mixes no answers up meets the condition, where no two calls have one answer. -/
theorem matching_of_own (hinj : Function.Injective answer) (hI : Stored answer s) (hok : InOrder answer s a)
    (h : Step cfg s a u) (hown : Own answer u) (hready : Ready answer u) : Matching s a := by
  cases h with
  | found ha =>
    obtain ⟨k, hk, hans⟩ := hI.answers _ _ ha
    have hnew := hown s.calls.length _ (getElem?_concat_iff.2 (.inl ⟨rfl, rfl⟩))
    have := hinj (hans.symm.trans hnew)
    omega
  | blocked ha => exact ha
  | @stored data =>
    intro k _ hk
    obtain ⟨timeoutMs, hk⟩ := waitsFor?_eq_some.1 hk
    obtain ⟨r, hr, hdata⟩ := Option.map_eq_some_iff.1 hok
    have hans := hready k s.questionCounter timeoutMs data hk (by rw [Dict.get?_insert, if_pos rfl])
    rw [hr, Option.map_some, hinj (hdata.trans hans)]
  | wake | timeout => trivial

theorem stored_step (hI : Stored answer s) (hok : InOrder answer s a) (h : Step cfg s a u) : Stored answer u := by
  have hreq : ∀ {io : Bool} {question : Bytes}, ∀ r ∈ (if io then s.requests ++ [(s.calls.length, packet cfg question)]
      else s.requests), r.1 < s.calls.length + 1 := by
    intro io question r hr
    split at hr
    · rcases List.mem_append.1 hr with hr | hr
      · exact Nat.lt_succ_of_lt (hI.requests r hr)
      · rw [List.mem_singleton.1 hr]
        exact Nat.lt_succ_self _
    · exact Nat.lt_succ_of_lt (hI.requests r hr)
  have hans : ∀ qid ans, s.answers.get? qid = some ans → ∃ k < s.calls.length + 1, ans = answer k := by
    intro qid ans ha
    obtain ⟨k, hk, rfl⟩ := hI.answers qid ans ha
    exact ⟨k, Nat.lt_succ_of_lt hk, rfl⟩
  cases h with
  | found =>
    refine ⟨fun r hr => ?_, fun qid ans ha => ?_⟩
    · simpa using hreq r hr
    · simpa using hans qid ans (erase_some ha)
  | blocked =>
    refine ⟨fun r hr => ?_, fun qid ans ha => ?_⟩
    · simpa using hreq r hr
    · simpa using hans qid ans ha
  | stored =>
    refine ⟨hI.requests, fun qid ans ha => ?_⟩
    rw [Dict.get?_insert] at ha
    split at ha
    · cases ha
      obtain ⟨r, hr, rfl⟩ := Option.map_eq_some_iff.1 hok
      exact ⟨r.1, hI.requests r (List.mem_of_getElem? hr), rfl⟩
    · exact hI.answers qid ans ha
  | wake =>
    refine ⟨fun r hr => ?_, fun qid ans ha => ?_⟩
    · simpa using hI.requests r hr
    · simpa using hI.answers qid ans (erase_some ha)
  | timeout =>
    refine ⟨fun r hr => ?_, fun qid ans ha => ?_⟩
    · simpa using hI.requests r hr
    · simpa using hI.answers qid ans ha

/-- **Where every answer arrives before the next call, throughout the run every call that has returned has
returned the answer to its own question.** Where no two calls have one answer, there is no other way. -/
theorem own_throughout {as : List QuerierAct} {t : OpenSocketQuerier}
    (h : (system cfg).Runs (InOrder answer) .start as t) :
    ((system cfg).Runs (fun s a => InOrder answer s a ∧ Matching s a) .start as t →
      (system cfg).Throughout (OwnNow cfg answer) .start as) ∧
    (Function.Injective answer → (system cfg).Throughout (OwnNow cfg answer) .start as →
      (system cfg).Runs (fun s a => InOrder answer s a ∧ Matching s a) .start as t) := by
  have hown : Own answer start ∧ Ready answer start := ⟨nofun, nofun⟩
  have hstored : Stored answer start := ⟨nofun, nofun⟩
  constructor
  · intro hm bs u hbs hu
    have hstep : ∀ {s a u}, Own answer s ∧ Ready answer s → InOrder answer s a ∧ Matching s a →
        (system cfg).step s a = some u → Own answer u ∧ Ready answer u :=
      fun hI hok hst => own_step hI.1 hI.2 hok.1 hok.2 (step_cases hst)
    exact ownNow_iff.2 (hm.throughout hstep hown bs u hbs hu)
  · intro hinj hall
    have hstep : ∀ {s a u}, Stored answer s → OwnNow cfg answer s → InOrder answer s a →
        (system cfg).step s a = some u → Stored answer u ∧ (OwnNow cfg answer u ↔ Matching s a) := by
      intro s a u hI hP hok hst
      have hst := step_cases hst
      obtain ⟨hs, hready⟩ := ownNow_iff.1 hP
      refine ⟨stored_step hI hok hst, fun hu => ?_, fun hm => ownNow_iff.2 (own_step hs hready hok hm hst)⟩
      obtain ⟨hu, hready⟩ := ownNow_iff.1 hu
      exact matching_of_own hinj hI hok hst hu hready
    exact (h.throughout_iff hstep hstored (ownNow_iff.2 hown)).1 hall

/-- Two calls, one behind the other. -/
theorem own_throughout_serial : ∃ t, (system ⟨[], []⟩).Runs
      (fun s a => InOrder (fun k => List.replicate (k + 1) 0x41) s a ∧ Matching s a) .start
      [.call [1] (-1) true, .handleReceivedData [0x41], .wake 0, .call [2] 50 true,
        .handleReceivedData [0x41, 0x41], .wake 1] t ∧
    (system ⟨[], []⟩).Throughout (OwnNow ⟨[], []⟩ fun k => List.replicate (k + 1) 0x41) .start
      [.call [1] (-1) true, .handleReceivedData [0x41], .wake 0, .call [2] 50 true,
        .handleReceivedData [0x41, 0x41], .wake 1] := by
  obtain ⟨t, hrun, -⟩ := (system ⟨[], []⟩).exists_run
    (fun s a => InOrder (fun k => List.replicate (k + 1) 0x41) s a ∧ Matching s a) .start
    [.call [1] (-1) true, .handleReceivedData [0x41], .wake 0, .call [2] 50 true,
      .handleReceivedData [0x41, 0x41], .wake 1] (fun _ => True) (by decide +kernel)
  have hinj : Function.Injective fun k => List.replicate (k + 1) (0x41 : UInt8) := by
    intro j k h
    simpa using congrArg List.length h
  obtain ⟨hsound, hexact⟩ := own_throughout (hrun.mono fun _ _ h => h.1)
  exact ⟨t, hexact hinj (hsound hrun), hsound hrun⟩

/-- Two calls wait when the first answer arrives. -/
theorem answer_mixed_up : ∃ as t,
    (system ⟨[], []⟩).Runs (InOrder fun k => List.replicate (k + 1) 0x41) .start as t ∧
      ¬ Own (fun k => List.replicate (k + 1) 0x41) t := by
  obtain ⟨t, hrun, hk⟩ := (system ⟨[], []⟩).exists_run (InOrder fun k => List.replicate (k + 1) 0x41) .start
    [.call [1] (-1) true, .call [2] (-1) true, .handleReceivedData [0x41], .wake 1]
    (fun t => t.calls[1]? = some (.returned [0x41])) (by decide +kernel)
  exact ⟨_, t, hrun, fun h => by simpa using h 1 [0x41] hk⟩

end KnotLink.Cpp.OpenSocketQuerier
