/-!
# Runs of a system

Threads that take small steps on a shared state are a `System`: `step s a` is the state after action
`a`, or nothing where `a` cannot happen. `Runs ok` are its runs whose every step meets `ok`: what the
environment is assumed to do, or the condition a result is about. `Runs.invariant` is the rule every
result about all interleavings uses; `exec_runs` turns one computed run into a `Runs`.
-/
namespace Lib

structure System (σ α : Type) where
  step : σ → α → Option σ

namespace System
variable {σ α : Type} (M : System σ α)

/-- The actions lead from the first state to the second, `ok` before each of them. -/
inductive Runs (ok : σ → α → Prop) : σ → List α → σ → Prop where
  | nil {s} : Runs ok s [] s
  | cons {s u t a as} : ok s a → M.step s a = some u → Runs ok u as t → Runs ok s (a :: as) t

/-- Take the actions one after another, testing `ok` before each. -/
def exec (ok : σ → α → Prop) [∀ s a, Decidable (ok s a)] (s : σ) : List α → Option σ
  | [] => some s
  | a :: as => if ok s a then (M.step s a).bind fun u => exec ok u as else none

variable {M} {ok : σ → α → Prop} {s t : σ} {as : List α}

theorem exec_runs [∀ s a, Decidable (ok s a)] (h : M.exec ok s as = some t) : M.Runs ok s as t := by
  induction as generalizing s with
  | nil =>
    cases h
    exact .nil
  | cons a as ih =>
    unfold exec at h
    split at h
    · rename_i hok
      obtain ⟨u, hstep, hrest⟩ := Option.bind_eq_some_iff.1 h
      exact .cons hok hstep (ih hrest)
    · cases h

theorem Runs.append {u : σ} {bs : List α} (h : M.Runs ok s as t) (h' : M.Runs ok t bs u) :
    M.Runs ok s (as ++ bs) u := by
  induction h with
  | nil => exact h'
  | cons hok hst _ ih => exact .cons hok hst (ih h')

variable (M ok s as) in
/-- A computed run that ends well. -/
theorem exists_run [∀ s a, Decidable (ok s a)] (P : σ → Prop) (h : ∃ t ∈ M.exec ok s as, P t) :
    ∃ t, M.Runs ok s as t ∧ P t := by
  obtain ⟨t, ht, hp⟩ := h
  exact ⟨t, exec_runs (Option.mem_def.1 ht), hp⟩

/-- **Invariant rule.** What the start has and every step within `ok` keeps, every state reached has. -/
theorem Runs.invariant {I : σ → Prop} (hstep : ∀ {s a u}, I s → ok s a → M.step s a = some u → I u)
    (h : M.Runs ok s as t) (hs : I s) : I t := by
  induction h with
  | nil => exact hs
  | cons hok hst _ ih => exact ih (hstep hs hok hst)

theorem Runs.mono {q : σ → α → Prop} (hok : ∀ s a, ok s a → q s a) (h : M.Runs ok s as t) :
    M.Runs q s as t := by
  induction h with
  | nil => exact .nil
  | cons ha hst _ ih => exact .cons (hok _ _ ha) hst ih

/-- `P` holds in every state of the run. -/
def Throughout (M : System σ α) (P : σ → Prop) (s : σ) (as : List α) : Prop :=
  ∀ bs u, bs <+: as → M.Runs (fun _ _ => True) s bs u → P u

/-- **Invariant rule, throughout.** -/
theorem Runs.throughout {I : σ → Prop} (hstep : ∀ {s a u}, I s → ok s a → M.step s a = some u → I u)
    (h : M.Runs ok s as t) (hs : I s) : M.Throughout I s as := by
  induction h with
  | nil =>
    intro bs u hbs hrun
    rw [List.prefix_nil.1 hbs] at hrun
    cases hrun
    exact hs
  | cons hok hst _ ih =>
    intro bs v hbs hrun
    cases hrun with
    | nil => exact hs
    | cons _ hst' hrun =>
      obtain ⟨rfl, hpre⟩ := List.cons_prefix_cons.1 hbs
      obtain rfl := Option.some.inj (hst.symm.trans hst')
      exact ih (hstep hs hok hst) _ v hpre hrun

/-- **Exactness rule.** If each step keeps `I`, and keeps `P` exactly when it meets `cond`, then `P` holds
throughout a run exactly when all its steps meet `cond`. -/
theorem Runs.throughout_iff {I P : σ → Prop} {cond : σ → α → Prop}
    (hstep : ∀ {s a u}, I s → P s → ok s a → M.step s a = some u → I u ∧ (P u ↔ cond s a))
    (h : M.Runs ok s as t) (hI : I s) (hP : P s) :
    M.Throughout P s as ↔ M.Runs (fun s a => ok s a ∧ cond s a) s as t := by
  induction h with
  | nil =>
    refine iff_of_true (fun bs u hbs hrun => ?_) .nil
    rw [List.prefix_nil.1 hbs] at hrun
    cases hrun
    exact hP
  | @cons s u t a as hok hst hrest ih =>
    obtain ⟨hIu, hPu⟩ := hstep hI hP hok hst
    constructor
    · intro hall
      have hu : P u := hall [a] u (by simp) (.cons trivial hst .nil)
      refine .cons ⟨hok, hPu.1 hu⟩ hst ((ih hIu hu).1 fun bs v hbs hrun => ?_)
      exact hall (a :: bs) v (List.cons_prefix_cons.2 ⟨rfl, hbs⟩) (.cons trivial hst hrun)
    · rintro (_ | ⟨⟨-, hcond⟩, hst', hrest'⟩) bs v hbs hrun
      obtain rfl := Option.some.inj (hst.symm.trans hst')
      cases hrun with
      | nil => exact hP
      | cons _ hst'' hrun =>
        obtain ⟨rfl, hpre⟩ := List.cons_prefix_cons.1 hbs
        obtain rfl := Option.some.inj (hst.symm.trans hst'')
        exact (ih hIu (hPu.2 hcond)).2 hrest' _ v hpre hrun

/-- The exactness rule for all runs. -/
theorem Runs.throughout_iff_runs {I P : σ → Prop} {cond : σ → α → Prop}
    (hstep : ∀ {s a u}, I s → P s → M.step s a = some u → I u ∧ (P u ↔ cond s a))
    (h : M.Runs (fun _ _ => True) s as t) (hI : I s) (hP : P s) : M.Throughout P s as ↔ M.Runs cond s as t := by
  rw [h.throughout_iff (fun hI hP _ hst => hstep hI hP hst) hI hP]
  exact ⟨fun hr => hr.mono fun _ _ ha => ha.2, fun hr => hr.mono fun _ _ ha => ⟨trivial, ha⟩⟩

/-- **Abstraction rule.** Where every step is a step of another system or changes nothing there, a run is a run of
that system too, and meets a condition there exactly if it does here. -/
theorem Runs.abstract {τ β : Type} {N : System τ β} {f : σ → τ} (g : σ → α → Option β) {I : σ → Prop}
    {cond : σ → α → Prop} {ok' cond' : τ → β → Prop}
    (hstep : ∀ {s a u}, I s → ok s a → M.step s a = some u → I u ∧ match g s a with
      | none => f u = f s ∧ cond s a
      | some b => N.step (f s) b = some (f u) ∧ ok' (f s) b ∧ (cond s a ↔ cond' (f s) b))
    (h : M.Runs ok s as t) (hs : I s) : ∃ bs, N.Runs ok' (f s) bs (f t) ∧
      (M.Runs (fun s a => ok s a ∧ cond s a) s as t ↔ N.Runs (fun s b => ok' s b ∧ cond' s b) (f s) bs (f t)) := by
  induction h with
  | nil => exact ⟨[], .nil, iff_of_true .nil .nil⟩
  | @cons s u t a as hok hst _ ih =>
    obtain ⟨hu, hmatch⟩ := hstep hs hok hst
    obtain ⟨bs, hrun, hiff⟩ := ih hu
    have hcons : M.Runs (fun s a => ok s a ∧ cond s a) s (a :: as) t ↔
        cond s a ∧ M.Runs (fun s a => ok s a ∧ cond s a) u as t := by
      constructor
      · rintro (_ | ⟨⟨-, hc⟩, hst', hrest⟩)
        obtain rfl := Option.some.inj (hst.symm.trans hst')
        exact ⟨hc, hrest⟩
      · rintro ⟨hc, hrest⟩
        exact .cons ⟨hok, hc⟩ hst hrest
    cases hg : g s a with
    | none =>
      rw [hg] at hmatch
      obtain ⟨hf, hc⟩ := hmatch
      rw [hf] at hrun hiff
      exact ⟨bs, hrun, hcons.trans ((and_iff_right hc).trans hiff)⟩
    | some b =>
      rw [hg] at hmatch
      obtain ⟨hb, hok', hc⟩ := hmatch
      refine ⟨b :: bs, .cons hok' hb hrun, ?_⟩
      rw [hcons, hc, hiff]
      constructor
      · rintro ⟨hcb, hrest⟩
        exact .cons ⟨hok', hcb⟩ hb hrest
      · rintro (_ | ⟨⟨-, hcb⟩, hb', hrest⟩)
        obtain rfl := Option.some.inj (hb.symm.trans hb')
        exact ⟨hcb, hrest⟩

/-- **History rule.** What the start has and every step keeps, told by the actions so far. -/
theorem Runs.history {I : List α → σ → Prop}
    (hstep : ∀ {bs s a u}, I bs s → ok s a → M.step s a = some u → I (bs ++ [a]) u) (h : M.Runs ok s as t)
    (hs : I [] s) : I as t := by
  have hfrom : ∀ bs, I bs s → I (bs ++ as) t := by
    clear hs
    induction h with
    | nil => simp
    | cons hok hst _ ih =>
      intro bs hbs
      rw [List.append_cons]
      exact ih _ (hstep hbs hok hst)
  exact hfrom [] hs

/-- **Counting rule.** Where every step keeps `I`, and makes the measure smaller by one if it is counted and bigger
only if it is paid, by `n` then, a run has no more counted steps than the measure and the paid ones allow. -/
theorem Runs.countP_le_add {I : σ → Prop} {m : σ → Nat} {own p : α → Bool} {n : Nat}
    (hstep : ∀ {s a u}, I s → ok s a → M.step s a = some u →
      I u ∧ m u + (own a).toNat ≤ m s + n * (p a).toNat)
    (h : M.Runs ok s as t) (hs : I s) : as.countP own + m t ≤ m s + n * as.countP p := by
  induction h with
  | nil => simp
  | @cons s u t a as hok hst _ ih =>
    obtain ⟨hu, hle⟩ := hstep hs hok hst
    have := ih hu
    rw [List.countP_cons, List.countP_cons, Nat.mul_add]
    cases hown : own a <;> cases hpaid : p a <;>
      simp only [hown, hpaid, Bool.toNat_true, Bool.toNat_false, if_true, Bool.false_eq_true, if_false] at hle ⊢ <;>
      omega

/-- The counting rule where nothing is paid. -/
theorem Runs.countP_le {I : σ → Prop} {m : σ → Nat} {own : α → Bool}
    (hstep : ∀ {s a u}, I s → ok s a → M.step s a = some u → I u ∧ m u + (own a).toNat ≤ m s)
    (h : M.Runs ok s as t) (hs : I s) : as.countP own + m t ≤ m s := by
  have := h.countP_le_add (p := fun _ => false) (n := 0) (fun hI hok hst => by simpa using hstep hI hok hst) hs
  omega

/-- **Progress rule.** Where every state that is not yet good has a step within `ok` that keeps `I` and makes
the measure smaller, a run leads to a good state. -/
theorem exists_run_to {I Q : σ → Prop} {m : σ → Nat}
    (hstep : ∀ s, I s → Q s ∨ ∃ a u, ok s a ∧ M.step s a = some u ∧ I u ∧ m u < m s) (s : σ) (hs : I s) :
    ∃ as t, M.Runs ok s as t ∧ I t ∧ Q t := by
  rcases hstep s hs with hq | ⟨a, u, hok, hst, hu, hlt⟩
  · exact ⟨[], s, .nil, hs, hq⟩
  · obtain ⟨as, t, hrun, ht⟩ := exists_run_to hstep u hu
    exact ⟨a :: as, t, .cons hok hst hrun, ht⟩
termination_by m s

variable (M ok) in
/-- A run within `ok` leads to a state with `Q`. -/
def CanReach (Q : σ → Prop) (s : σ) : Prop := ∃ as t, M.Runs ok s as t ∧ Q t

theorem CanReach.now {Q : σ → Prop} (h : Q s) : M.CanReach ok Q s := ⟨[], s, .nil, h⟩

theorem CanReach.before {Q : σ → Prop} {a : α} {u : σ} (hok : ok s a) (hst : M.step s a = some u)
    (h : M.CanReach ok Q u) : M.CanReach ok Q s := by
  obtain ⟨as, t, hrun, hQ⟩ := h
  exact ⟨a :: as, t, .cons hok hst hrun, hQ⟩

theorem CanReach.trans {P Q : σ → Prop} (h : M.CanReach ok P s) (hPQ : ∀ t, P t → M.CanReach ok Q t) :
    M.CanReach ok Q s := by
  obtain ⟨as, t, hrun, hP⟩ := h
  obtain ⟨bs, u, hrun', hQ⟩ := hPQ t hP
  exact ⟨as ++ bs, u, hrun.append hrun', hQ⟩

theorem CanReach.mono {P Q : σ → Prop} (h : M.CanReach ok P s) (hPQ : ∀ t, P t → Q t) : M.CanReach ok Q s :=
  h.trans fun t ht => .now (hPQ t ht)

/-- What every step within `ok` keeps, the state reached has too. -/
theorem CanReach.invariant {I Q : σ → Prop} (hstep : ∀ {s a u}, I s → ok s a → M.step s a = some u → I u)
    (h : M.CanReach ok Q s) (hs : I s) : ∃ t, I t ∧ Q t := by
  obtain ⟨as, t, hrun, hQ⟩ := h
  exact ⟨t, hrun.invariant hstep hs, hQ⟩

/-- The progress rule, for `CanReach`. -/
theorem canReach_of_measure {I Q : σ → Prop} {m : σ → Nat}
    (hstep : ∀ s, I s → Q s ∨ ∃ a u, ok s a ∧ M.step s a = some u ∧ I u ∧ m u < m s) (hs : I s) :
    M.CanReach ok (fun t => I t ∧ Q t) s :=
  exists_run_to hstep s hs

end System

/-! ## Threads by number -/

section
variable {α : Type} {ps : List α} {j k : Nat} {p q r : α}

/-- Thread `k` moves from `p` to `q`. -/
theorem getElem?_set_iff (h : ps[k]? = some p) :
    (ps.set k q)[j]? = some r ↔ (j = k ∧ r = q) ∨ (j ≠ k ∧ ps[j]? = some r) := by
  have hk : k < ps.length := (List.getElem?_eq_some_iff.1 h).1
  rw [List.getElem?_set]
  by_cases hj : k = j
  · subst hj
    simp [hk, eq_comm]
  · simp [hj, Ne.symm hj]

/-- Thread `k` stays. -/
theorem set_of_getElem? (h : ps[k]? = some p) : ps.set k p = ps := by
  obtain ⟨hk, rfl⟩ := List.getElem?_eq_some_iff.1 h
  exact List.set_getElem_self hk

/-- What is seen of thread `k` does not change. -/
theorem map_set_same {β : Type} {f : α → β} (h : ps[k]? = some p) (hq : f q = f p) :
    (ps.set k q).map f = ps.map f := by
  rw [List.map_set, hq]
  exact set_of_getElem? (by rw [List.getElem?_map, h]; rfl)

/-- A thread with `P` is still there when thread `k` moves and keeps `P`. -/
theorem exists_mem_set {P : α → Prop} (h : ps[k]? = some p) (hq : P p → P q) (hex : ∃ x ∈ ps, P x) :
    ∃ x ∈ ps.set k q, P x := by
  obtain ⟨x, hx, hP⟩ := hex
  obtain ⟨j, hj⟩ := List.mem_iff_getElem?.1 hx
  by_cases hjk : j = k
  · subst hjk
    obtain rfl := Option.some.inj (h.symm.trans hj)
    exact ⟨q, List.mem_of_getElem? ((getElem?_set_iff h).2 (.inl ⟨rfl, rfl⟩)), hq hP⟩
  · exact ⟨x, List.mem_of_getElem? ((getElem?_set_iff h).2 (.inr ⟨hjk, hj⟩)), hP⟩

/-- Thread `k` changes how many threads there are of a kind by itself. -/
theorem countP_set_of_getElem? {f : α → Bool} (h : ps[k]? = some p) :
    (ps.set k q).countP f + (f p).toNat = ps.countP f + (f q).toNat := by
  obtain ⟨hk, rfl⟩ := List.getElem?_eq_some_iff.1 h
  rw [List.countP_set hk]
  cases hp : f ps[k] with
  | false => cases f q <;> simp
  | true =>
    have hpos : 0 < ps.countP f := List.countP_pos_iff.2 ⟨_, List.getElem_mem hk, hp⟩
    cases f q <;> simp only [Bool.toNat_true, Bool.toNat_false, if_true, Bool.false_eq_true, if_false] <;> omega

/-- One more thread. -/
theorem getElem?_concat_iff : (ps ++ [q])[j]? = some r ↔ (j = ps.length ∧ r = q) ∨ ps[j]? = some r := by
  rcases Nat.lt_trichotomy j ps.length with hj | rfl | hj
  · rw [List.getElem?_append_left hj]
    simp [Nat.ne_of_lt hj]
  · simp [eq_comm]
  · rw [List.getElem?_eq_none (by simp; omega), List.getElem?_eq_none (Nat.le_of_lt hj)]
    simp [Nat.ne_of_gt hj]

/-- What the threads have in all. -/
def total (f : α → Nat) : List α → Nat
  | [] => 0
  | p :: ps => f p + total f ps

theorem total_append (f : α → Nat) (ps qs : List α) : total f (ps ++ qs) = total f ps + total f qs := by
  induction ps with
  | nil => simp [total]
  | cons p ps ih => simp [total, ih, Nat.add_assoc]

/-- Thread `k` changes the total by itself. -/
theorem total_set {f : α → Nat} (h : ps[k]? = some p) : total f (ps.set k q) + f p = total f ps + f q := by
  induction ps generalizing k with
  | nil => simp at h
  | cons x ps ih =>
    cases k with
    | zero =>
      obtain rfl : x = p := by simpa using h
      simp only [List.set_cons_zero, total]
      omega
    | succ k =>
      have := ih (k := k) (by simpa using h)
      simp only [List.set_cons_succ, total]
      omega

/-- What thread `k` adds when it moves to `q`. -/
theorem filterMap_set_perm {β : Type} {f : α → Option β} (h : ps[k]? = some p) (hp : f p = none) :
    ((ps.set k q).filterMap f).Perm (ps.filterMap f ++ (f q).toList) := by
  induction ps generalizing k with
  | nil => simp at h
  | cons x ps ih =>
    cases k with
    | zero =>
      obtain rfl : x = p := by simpa using h
      rw [List.set_cons_zero, List.filterMap_cons_none hp]
      cases hq : f q with
      | none => simp [hq]
      | some b =>
        rw [List.filterMap_cons_some hq]
        exact (List.perm_append_singleton b _).symm
    | succ k =>
      have := ih (k := k) (by simpa using h)
      rw [List.set_cons_succ]
      cases hx : f x with
      | none => rwa [List.filterMap_cons_none hx, List.filterMap_cons_none hx]
      | some b =>
        rw [List.filterMap_cons_some hx, List.filterMap_cons_some hx]
        exact this.cons b

end
end Lib
