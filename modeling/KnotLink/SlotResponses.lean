import KnotLink.Java.QuerierResponses
import KnotLink.Rust.QuerierResponses
/-!
# A response reaches the call it is for, in Java and Rust

Both queriers send the request first and enter the slot afterwards. The response is lost if it is handed over
in between.
-/
namespace KnotLink
open Lib

/-- **Throughout a run with one caller, every response handed over has completed the future of its own
`queryL`, has reached its own `query_l`, exactly if** each was handed over when the slot was not empty. -/
theorem responses_throughout_iff {cfg : Java.QuerierConfig} {τ : Type} {answer : Nat → τ} {answer' : Nat → Bytes}
    {as : List (Java.QuerierAct τ)} {t : Java.OpenSocketQuerier τ}
    (h : (Java.OpenSocketQuerier.system cfg).Runs (Java.OpenSocketQuerier.OneByOne answer) .start as t)
    {bs : List Rust.QuerierAct} {v : Rust.OpenSocketQuerier}
    (h' : Rust.OpenSocketQuerier.system.Runs (Rust.OpenSocketQuerier.OneByOne answer') .start bs v) :
    ((Java.OpenSocketQuerier.system cfg).Throughout (Java.OpenSocketQuerier.Completed answer) .start as ↔
      (Java.OpenSocketQuerier.system cfg).Runs
        (fun s a => Java.OpenSocketQuerier.OneByOne answer s a ∧ Java.OpenSocketQuerier.Registered s a) .start as t) ∧
    (Rust.OpenSocketQuerier.system.Throughout (Rust.OpenSocketQuerier.Delivered answer') .start bs ↔
      Rust.OpenSocketQuerier.system.Runs
        (fun s a => Rust.OpenSocketQuerier.OneByOne answer' s a ∧ Rust.OpenSocketQuerier.Registered s a) .start bs v) :=
  ⟨h.throughout_iff (fun hI hP hok hst => Java.OpenSocketQuerier.keep_step hI hP hok hst)
      ⟨nofun, Slot.alone_start⟩ nofun,
    h'.throughout_iff (fun hI hP hok hst => Rust.OpenSocketQuerier.keep_step hI hP hok hst) Slot.alone_start nofun⟩

/-- The service is slower than the caller. -/
def slowJava : List (Java.QuerierAct Nat) := [.call ['q'], .send 0 true, .set 0, .receive 0, .complete]

def slowRust : List Rust.QuerierAct :=
  [.call ['q'] ['a'] ['b'] none, .send 0, .write, .register 0, .onData [0x41], .resume 0]

theorem responses_throughout_iff_slow :
    (∃ t, (Java.OpenSocketQuerier.system ⟨['a'], ['b']⟩).Runs
        (fun s a => Java.OpenSocketQuerier.OneByOne id s a ∧ Java.OpenSocketQuerier.Registered s a) .start slowJava t ∧
      (Java.OpenSocketQuerier.system ⟨['a'], ['b']⟩).Throughout (Java.OpenSocketQuerier.Completed id) .start slowJava) ∧
    ∃ v, Rust.OpenSocketQuerier.system.Runs (fun s a => Rust.OpenSocketQuerier.OneByOne (fun _ => [0x41]) s a ∧
        Rust.OpenSocketQuerier.Registered s a) .start slowRust v ∧
      Rust.OpenSocketQuerier.system.Throughout (Rust.OpenSocketQuerier.Delivered fun _ => [0x41]) .start slowRust := by
  obtain ⟨t, hrun, -⟩ := (Java.OpenSocketQuerier.system ⟨['a'], ['b']⟩).exists_run
    (fun s a => Java.OpenSocketQuerier.OneByOne id s a ∧ Java.OpenSocketQuerier.Registered s a) .start slowJava
    (fun _ => True) (by decide +kernel)
  obtain ⟨v, hrun', -⟩ := Rust.OpenSocketQuerier.system.exists_run
    (fun s a => Rust.OpenSocketQuerier.OneByOne (fun _ => [0x41]) s a ∧ Rust.OpenSocketQuerier.Registered s a) .start
    slowRust (fun _ => True) (by decide +kernel)
  obtain ⟨hj, hr⟩ := responses_throughout_iff (hrun.mono fun _ _ h => h.1) (hrun'.mono fun _ _ h => h.1)
  exact ⟨⟨t, hrun, hj.2 hrun⟩, v, hrun', hr.2 hrun'⟩

/-- The response comes before the caller has entered the slot. -/
theorem response_lost :
    (∃ (as : List (Java.QuerierAct Nat)) (t : Java.OpenSocketQuerier Nat),
      (Java.OpenSocketQuerier.system ⟨['a'], ['b']⟩).Runs (Java.OpenSocketQuerier.OneByOne id) .start as t ∧
        ¬ Java.OpenSocketQuerier.Completed id t) ∧
    (∃ as t, Rust.OpenSocketQuerier.system.Runs (Rust.OpenSocketQuerier.OneByOne fun _ => [0x41]) .start as t ∧
        ¬ Rust.OpenSocketQuerier.Delivered (fun _ => [0x41]) t) := by
  constructor
  · obtain ⟨t, hrun, hh, hw, hc, hr⟩ := (Java.OpenSocketQuerier.system ⟨['a'], ['b']⟩).exists_run
      (Java.OpenSocketQuerier.OneByOne id) .start [.call ['q'], .send 0 true, .receive 0, .set 0]
      (fun t => t.handed.length = 1 ∧ t.requests[0]? = some 0 ∧ t.calls[0]? = some (.returned .pending) ∧
        t.reader = none) (by decide +kernel)
    refine ⟨_, t, hrun, fun h => ?_⟩
    have := h 0 0 (by omega) hw
    rw [hc, hr] at this
    rcases this with h | h <;> cases h
  · obtain ⟨t, hrun, hh, hw, hc⟩ := Rust.OpenSocketQuerier.system.exists_run
      (Rust.OpenSocketQuerier.OneByOne fun _ => [0x41]) .start
      [.call ['q'] ['a'] ['b'] none, .send 0, .write, .onData [0x41], .register 0]
      (fun t => t.handed.length = 1 ∧ (t.written.map Prod.fst)[0]? = some 0 ∧
        t.view.phases[0]? = some .waiting) (by decide +kernel)
    refine ⟨_, t, hrun, fun h => ?_⟩
    have := Rust.OpenSocketQuerier.answered_iff.2 h 0 0 (by simp [Rust.OpenSocketQuerier.view, hh]) hw
    rw [hc] at this
    rcases this with h | h <;> cases h

end KnotLink
