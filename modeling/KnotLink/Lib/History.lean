import Mathlib.Data.List.Infix
/-!
# Histories

What someone was told, one item after another, who answers each item by what came before it. `Each P g ms` says
that `P` holds after every item of `ms`, told behind `g`; where it fails there is a first item to blame
(`exists_first`), and only one (`first_unique`). `upTo` stops telling there.
-/
namespace Lib

variable {α : Type}

/-- `P` holds after each of the items `ms`, which come behind `g`. -/
def Each (P : List α → Prop) (g ms : List α) : Prop := ∀ p, p <+: ms → p ≠ [] → P (g ++ p)

/-- The items up to the first one, if any, at which `stop` says so. -/
def upTo (stop : List α → Bool) (g : List α) : List α → List α
  | [] => []
  | m :: ms => m :: if stop (g ++ [m]) then [] else upTo stop (g ++ [m]) ms

variable {P : List α → Prop} {g ms ns : List α} {m : α}

theorem each_nil (P : List α → Prop) (g : List α) : Each P g [] :=
  fun _ hp hne => absurd (List.prefix_nil.1 hp) hne

theorem each_singleton : Each P g [m] ↔ P (g ++ [m]) := by
  constructor
  · exact fun h => h [m] List.prefix_rfl (List.cons_ne_nil m [])
  · intro h p hp hne
    rcases List.prefix_cons_iff.1 hp with rfl | ⟨q, rfl, hq⟩
    · exact absurd rfl hne
    · rw [List.prefix_nil.1 hq]
      exact h

theorem Each.of_isPrefix (h : Each P g ms) (hns : ns <+: ms) : Each P g ns :=
  fun p hp hne => h p (hp.trans hns) hne

theorem each_append : Each P g (ms ++ ns) ↔ Each P g ms ∧ Each P (g ++ ms) ns := by
  constructor
  · intro h
    refine ⟨h.of_isPrefix (List.prefix_append ms ns), fun p hp hne => ?_⟩
    rw [List.append_assoc]
    exact h (ms ++ p) ((List.prefix_append_right_inj ms).2 hp) (by simp [hne])
  · rintro ⟨hms, hns⟩ p hp hne
    rcases List.prefix_or_prefix_of_prefix hp (List.prefix_append ms ns) with h | ⟨q, rfl⟩
    · exact hms p h hne
    · rcases q with _ | ⟨m, q⟩
      · rw [List.append_nil] at hne ⊢
        exact hms ms List.prefix_rfl hne
      · rw [← List.append_assoc]
        exact hns (m :: q) ((List.prefix_append_right_inj ms).1 hp) (List.cons_ne_nil m q)

theorem each_cons : Each P g (m :: ms) ↔ P (g ++ [m]) ∧ Each P (g ++ [m]) ms := by
  rw [← List.singleton_append, each_append, each_singleton]

/-- An item at which `P` fails is not among those at which it holds. -/
theorem Each.not_prefix (h : Each P [] ms) (hm : ¬ P (ns ++ [m])) : ¬ ns ++ [m] <+: ms :=
  fun hp => hm (h (ns ++ [m]) hp (by simp))

/-- The first item at which `P` fails. -/
theorem exists_first (h : ¬ Each P g ms) : ∃ done m more, ms = done ++ m :: more ∧ Each P g done ∧
    ¬ P (g ++ done ++ [m]) := by
  induction ms generalizing g with
  | nil => exact absurd (each_nil P g) h
  | cons m ms ih =>
    by_cases hm : P (g ++ [m])
    · obtain ⟨done, m', more, rfl, hdone, hfail⟩ := ih (fun hms => h (each_cons.2 ⟨hm, hms⟩))
      refine ⟨m :: done, m', more, rfl, each_cons.2 ⟨hm, hdone⟩, ?_⟩
      rwa [List.append_assoc g [m] done] at hfail
    · exact ⟨[], m, ms, rfl, each_nil P g, by rwa [List.append_nil]⟩

/-- There is only one first item at which `P` fails. -/
theorem first_unique {all done done' : List α} {m' : α} (hpre : done ++ [m] <+: all) (hpre' : done' ++ [m'] <+: all)
    (h : Each P [] done) (h' : Each P [] done') (hm : ¬ P (done ++ [m])) (hm' : ¬ P (done' ++ [m'])) :
    done = done' ∧ m = m' := by
  have hle : ∀ {d d' : List α} {n n' : α}, d ++ [n] <+: all → d' ++ [n'] <+: all → Each P [] d' → ¬ P (d ++ [n]) →
      d'.length ≤ d.length := by
    intro d d' n n' hd hd' he hn
    refine Nat.le_of_not_lt fun hlt => he.not_prefix hn ?_
    exact List.prefix_of_prefix_length_le hd ((List.prefix_append d' [n']).trans hd')
      (by simpa using Nat.succ_le_of_lt hlt)
  have hlen : done.length = done'.length := Nat.le_antisymm (hle hpre' hpre h hm') (hle hpre hpre' h' hm)
  have hsame : done ++ [m] = done' ++ [m'] :=
    (List.prefix_of_prefix_length_le hpre hpre' (by simp [hlen])).eq_of_length (by simp [hlen])
  obtain ⟨rfl, hm⟩ := List.append_inj hsame hlen
  exact ⟨rfl, by simpa using hm⟩

/-- Where the last item is the first at which `P` fails, `P` fails at no other. -/
theorem Each.last {done done' more : List α} {m' : α} (h : Each P [] done) (heq : done ++ [m] = done' ++ m' :: more)
    (hm' : ¬ P (done' ++ [m'])) : more = [] := by
  rcases List.eq_nil_or_concat more with rfl | ⟨more, x, rfl⟩
  · rfl
  · refine absurd ?_ (h.not_prefix hm')
    have hinit := congrArg List.dropLast heq
    simp only [List.dropLast_concat, List.concat_eq_append] at hinit
    rw [hinit, ← List.cons_append, ← List.append_assoc, List.dropLast_concat]
    exact ⟨more, by simp⟩

variable {stop : List α → Bool}

theorem upTo_of_each (h : Each (fun p => stop p = false) g ms) : upTo stop g ms = ms := by
  induction ms generalizing g with
  | nil => rfl
  | cons m ms ih =>
    obtain ⟨hm, hms⟩ := each_cons.1 h
    rw [upTo, hm, ih hms]
    rfl

theorem upTo_of_first {done more : List α} (h : Each (fun p => stop p = false) g done)
    (hm : stop (g ++ done ++ [m]) = true) : upTo stop g (done ++ m :: more) = done ++ [m] := by
  induction done generalizing g with
  | nil =>
    rw [List.append_nil] at hm
    simp [upTo, hm]
  | cons d done ih =>
    obtain ⟨hd, hdone⟩ := each_cons.1 h
    have htail := ih hdone (by rwa [List.append_assoc g [d] done])
    rw [List.cons_append, upTo, hd, htail]
    rfl

end Lib
