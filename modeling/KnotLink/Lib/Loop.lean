/-!
# `while True` loops

A loop body either goes round again with a new state or leaves the loop with a result. A `Body`
carries its own termination argument (a measure that drops on every `again`), so `Body.run` is total
and the rules below need no fuel: `Body.run_rule` is the invariant rule, `Body.simulate` the rule
for two loops that keep a relation turn by turn. `runUntil` is a loop over events that stops by itself.
-/
namespace Lib

/-- What one turn of a loop body does. -/
inductive Turn (σ ρ : Type) where
  /-- Go round again. -/
  | again (s : σ)
  /-- `break` or `return`. -/
  | leave (r : ρ)

/-- A loop body together with the measure that makes the loop end. -/
structure Body (σ ρ : Type) where
  turn : σ → Turn σ ρ
  measure : σ → Nat
  decreases : ∀ {s s'}, turn s = .again s' → measure s' < measure s

namespace Body
variable {σ τ ρ π : Type}

/-- Turn after turn until the body leaves. -/
def run (b : Body σ ρ) (s : σ) : ρ :=
  match _h : b.turn s with
  | .again s' => b.run s'
  | .leave r => r
termination_by b.measure s
decreasing_by exact b.decreases _h

theorem run_again {b : Body σ ρ} {s s' : σ} (h : b.turn s = .again s') : b.run s = b.run s' := by
  rw [run]; split <;> simp_all

theorem run_leave {b : Body σ ρ} {s : σ} {r : ρ} (h : b.turn s = .leave r) : b.run s = r := by
  rw [run]; split <;> simp_all

/-- Induction over the turns of a run. -/
theorem run_induct {b : Body σ ρ} {P : σ → Prop}
    (hleave : ∀ s r, b.turn s = .leave r → P s)
    (hagain : ∀ s s', b.turn s = .again s' → P s' → P s) (s : σ) : P s := by
  cases h : b.turn s with
  | leave r => exact hleave s r h
  | again s' => exact hagain s s' h (run_induct hleave hagain s')
termination_by b.measure s
decreasing_by exact b.decreases h

/-- **Invariant rule.** What every turn keeps, and every way out turns into `Q`, gives `Q` at the end. -/
theorem run_rule (b : Body σ ρ) {I : σ → Prop} {Q : ρ → Prop}
    (hagain : ∀ {s s'}, I s → b.turn s = .again s' → I s')
    (hleave : ∀ {s r}, I s → b.turn s = .leave r → Q r) {s : σ} (hs : I s) : Q (b.run s) := by
  induction s using run_induct (b := b) with
  | hleave s r h => rw [run_leave h]; exact hleave hs h
  | hagain s s' h ih => rw [run_again h]; exact ih (hagain hs h)

/-- Two turns agree: both go round again in related states, or both leave with related results. -/
inductive Agree (R : σ → τ → Prop) (Q : ρ → π → Prop) : Turn σ ρ → Turn τ π → Prop where
  | again {s t} : R s t → Agree R Q (.again s) (.again t)
  | leave {r p} : Q r p → Agree R Q (.leave r) (.leave p)

/-- **Simulation rule.** Loops whose turns agree on related states end in related results. -/
theorem simulate (b : Body σ ρ) (c : Body τ π) {R : σ → τ → Prop} {Q : ρ → π → Prop}
    (hturn : ∀ {s t}, R s t → Agree R Q (b.turn s) (c.turn t)) {s : σ} {t : τ} (hst : R s t) :
    Q (b.run s) (c.run t) := by
  induction s using run_induct (b := b) generalizing t with
  | hleave s r h =>
    have ha := hturn hst
    rw [h] at ha
    generalize hc : c.turn t = u at ha
    cases ha with
    | leave hq => rw [run_leave h, run_leave hc]; exact hq
  | hagain s s' h ih =>
    have ha := hturn hst
    rw [h] at ha
    generalize hc : c.turn t = u at ha
    cases ha with
    | again hr => rw [run_again h, run_again hc]; exact ih hr

end Body
/-! ## Event loops -/

section
variable {σ α : Type} {f : σ → α → σ} {stop : σ → Bool} {s : σ}

/-- One event after another until `stop`; nothing while the loop still waits. -/
def runUntil (f : σ → α → σ) (stop : σ → Bool) (s : σ) : List α → Option σ
  | [] => none
  | a :: as => if stop (f s a) then some (f s a) else runUntil f stop (f s a) as

/-- The loop stops behind the first event that makes it stop. -/
theorem runUntil_eq {as : List α} {n : Nat} (hn : n < as.length) (hstop : stop ((as.take (n + 1)).foldl f s) = true)
    (hgo : ∀ k < n, stop ((as.take (k + 1)).foldl f s) = false) :
    runUntil f stop s as = some ((as.take (n + 1)).foldl f s) := by
  induction as generalizing s n with
  | nil => exact absurd hn (Nat.not_lt_zero n)
  | cons a as ih =>
    cases n with
    | zero =>
      have ha : stop (f s a) = true := hstop
      rw [runUntil, if_pos ha]
      rfl
    | succ n =>
      have ha : stop (f s a) = false := hgo 0 (Nat.succ_pos n)
      rw [runUntil, ha, if_neg nofun]
      exact ih (Nat.lt_of_succ_lt_succ hn) hstop fun k hk => hgo (k + 1) (Nat.succ_lt_succ hk)

end

section
variable {α : Type} {L : Nat → List α} {m : α} {later : List α}

theorem prefix_of_le (hmono : ∀ k, L k <+: L (k + 1)) {j k : Nat} (h : j ≤ k) : L j <+: L k := by
  induction h with
  | refl => exact List.prefix_rfl
  | step _ ih => exact ih.trans (hmono _)

/-- The first batch of a list that grows. -/
theorem exists_first_batch (hmono : ∀ k, L k <+: L (k + 1)) (h0 : L 0 = []) {k : Nat} (hk : L k = m :: later) :
    ∃ n < k, (∀ j ≤ n, L j = []) ∧ ∃ more, L (n + 1) = m :: more := by
  induction k generalizing later with
  | zero =>
    rw [h0] at hk
    cases hk
  | succ k ih =>
    rcases hL : L k with _ | ⟨m', later'⟩
    · refine ⟨k, Nat.lt_succ_self k, fun j hj => ?_, later, hk⟩
      have := prefix_of_le hmono hj
      rw [hL] at this
      exact List.prefix_nil.1 this
    · have hpre := hmono k
      rw [hL, hk] at hpre
      obtain ⟨rfl, -⟩ := List.cons_prefix_cons.1 hpre
      obtain ⟨n, hn, hempty, hmore⟩ := ih hL
      exact ⟨n, Nat.lt_succ_of_lt hn, hempty, hmore⟩

end
end Lib
