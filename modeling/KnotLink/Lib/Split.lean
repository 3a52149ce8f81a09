import KnotLink.Lib.Text
/-!
# Cutting a text at a separator

`cut?` cuts at the first occurrence of a pattern; `splitMax` cuts at most so many times and `split` as
often as it can. `cut?_eq_some_iff` says which cut it is, `cut?_singleton` the same for one character.
-/
namespace Lib
section
variable {α : Type} [DecidableEq α] {p s t r : List α}

/-- The text before the first occurrence of `p`, and the text behind it. -/
def cut? (p s : List α) : Option (List α × List α) := (indexOf? p s).map fun i => (s.take i, s.drop (i + p.length))

/-- The pieces of at most `n` cuts. -/
def splitMax (p : List α) : Nat → List α → List (List α)
  | 0, s => [s]
  | n + 1, s =>
    match cut? p s with
    | none => [s]
    | some (t, rest) => t :: splitMax p n rest

/-- All pieces: there are no more cuts than characters. -/
def split (p s : List α) : List (List α) := splitMax p s.length s

theorem cut?_nil (hp : p ≠ []) : cut? p [] = none := by
  simp [cut?, indexOf?, hp]

/-- Either the pattern is at the front, or the cut is the one of the rest. -/
theorem cut?_cons (p : List α) (c : α) (s : List α) :
    cut? p (c :: s) =
      if p <+: c :: s then some ([], (c :: s).drop p.length) else (cut? p s).map fun e => (c :: e.1, e.2) := by
  unfold cut?
  rw [indexOf?]
  split
  · simp
  · cases indexOf? p s with
    | none => rfl
    | some i => simp [Nat.add_right_comm i 1]

/-- Cut exactly where the pattern occurs first. -/
theorem cut?_eq_some_iff (hp : p ≠ []) :
    cut? p s = some (t, r) ↔ s = t ++ p ++ r ∧ ∀ t' r', s = t' ++ p ++ r' → t.length ≤ t'.length := by
  induction s generalizing t with
  | nil => simp [cut?_nil hp, hp]
  | cons c s ih =>
    rw [cut?_cons]
    split
    · rename_i hpre
      obtain ⟨rest, hrest⟩ := hpre
      rw [← hrest, List.drop_left, Option.some.injEq, Prod.mk.injEq]
      constructor
      · rintro ⟨rfl, rfl⟩
        exact ⟨rfl, fun _ _ _ => Nat.zero_le _⟩
      · rintro ⟨hs, hmin⟩
        obtain rfl : t = [] := List.length_eq_zero_iff.1 (Nat.le_zero.1 (hmin [] rest rfl))
        exact ⟨rfl, by simpa using hs⟩
    · rename_i hpre
      -- no occurrence at the front: those of the rest are one further on
      have hcons : ∀ t' r', c :: s = t' ++ p ++ r' → ∃ t'', t' = c :: t'' ∧ s = t'' ++ p ++ r' := by
        intro t' r' h
        cases t' with
        | nil => exact absurd ⟨r', h.symm⟩ hpre
        | cons c' t'' =>
          obtain ⟨rfl, hs⟩ := List.cons.inj h
          exact ⟨t'', rfl, hs⟩
      rw [Option.map_eq_some_iff]
      constructor
      · rintro ⟨⟨t₀, r₀⟩, hcut, heq⟩
        obtain ⟨rfl, rfl⟩ := Prod.mk.inj heq
        obtain ⟨hs, hmin⟩ := ih.1 hcut
        refine ⟨by simp [hs], fun t' r' h => ?_⟩
        obtain ⟨t'', rfl, hs'⟩ := hcons t' r' h
        exact Nat.succ_le_succ (hmin t'' r' hs')
      · rintro ⟨hs, hmin⟩
        obtain ⟨t₀, rfl, hs₀⟩ := hcons t r hs
        refine ⟨(t₀, r), ih.2 ⟨hs₀, fun t' r' h => ?_⟩, rfl⟩
        exact Nat.le_of_succ_le_succ (hmin (c :: t') r' (by simp [h]))

theorem cut?_eq_none_iff (hp : p ≠ []) : cut? p s = none ↔ ¬ p <:+: s := by
  induction s with
  | nil => simp [cut?_nil hp, hp]
  | cons c s ih =>
    rw [cut?_cons, List.infix_cons_iff]
    split
    · simp_all
    · simp_all

/-- At one character: the first part is what does not hold it. -/
theorem cut?_singleton {a : α} : cut? [a] s = some (t, r) ↔ s = t ++ a :: r ∧ a ∉ t := by
  rw [cut?_eq_some_iff (by simp), List.append_assoc, List.singleton_append]
  refine and_congr_right fun hs => ⟨fun hmin hmem => ?_, fun hno t' r' h => ?_⟩
  · obtain ⟨t₁, t₂, rfl⟩ := List.append_of_mem hmem
    have := hmin t₁ (t₂ ++ a :: r) (by simp [hs])
    rw [List.length_append, List.length_cons] at this
    omega
  · rw [hs, List.append_assoc, List.singleton_append] at h
    rcases List.append_eq_append_iff.1 h with ⟨u, rfl, -⟩ | ⟨u, rfl, hu⟩
    · simp
    · cases u with
      | nil => simp
      | cons c u =>
        obtain ⟨rfl, -⟩ := List.cons.inj hu
        exact absurd (by simp) hno

/-- At a delimiter `aba`: the first part neither holds it nor ends in `ab`, where a delimiter would begin
earlier. -/
theorem cut?_delimiter {a b : α} (hab : a ≠ b) :
    cut? [a, b, a] s = some (t, r) ↔ s = t ++ [a, b, a] ++ r ∧ ¬ [a, b, a] <:+: t ∧ ¬ [a, b] <:+ t := by
  constructor
  · intro h
    obtain ⟨hs, hmin⟩ := (cut?_eq_some_iff (by simp)).1 h
    refine ⟨hs, ?_, ?_⟩
    · rintro ⟨y, x, rfl⟩
      have := hmin y (x ++ [a, b, a] ++ r) (by simp [hs])
      simp only [List.length_append, List.length_cons] at this
      omega
    · rintro ⟨y, rfl⟩
      have := hmin y ([b, a] ++ r) (by simp [hs])
      simp only [List.length_append, List.length_cons] at this
      omega
  · rintro ⟨rfl, hin, hend⟩
    rw [cut?, indexOf?_delimiter hab hin hend, Option.map_some]
    simp

omit [DecidableEq α] in
/-- Two texts joined at `c` from different parts: the first part of one goes on behind a `c`. -/
theorem joined_eq_iff {c : α} {a s a' s' : List α} : a ++ c :: s = a' ++ c :: s' ↔
    (a = a' ∧ s = s') ∨ (∃ x, a' = a ++ c :: x ∧ s = x ++ c :: s') ∨ (∃ x, a = a' ++ c :: x ∧ s' = x ++ c :: s) := by
  rw [List.append_eq_append_iff]
  constructor
  · rintro (⟨y, rfl, hy⟩ | ⟨y, rfl, hy⟩) <;> rcases y with _ | ⟨d, x⟩
    · exact .inl ⟨by simp, (List.cons.inj hy).2⟩
    · obtain ⟨rfl, rfl⟩ := List.cons.inj hy
      exact .inr (.inl ⟨x, rfl, rfl⟩)
    · exact .inl ⟨by simp, (List.cons.inj hy).2.symm⟩
    · obtain ⟨rfl, rfl⟩ := List.cons.inj hy
      exact .inr (.inr ⟨x, rfl, rfl⟩)
  · rintro (⟨rfl, rfl⟩ | ⟨x, rfl, rfl⟩ | ⟨x, rfl, rfl⟩)
    · exact .inl ⟨[], by simp, rfl⟩
    · exact .inl ⟨c :: x, rfl, rfl⟩
    · exact .inr ⟨c :: x, rfl, rfl⟩

/-! ## Pieces -/

theorem splitMax_one (p s : List α) : splitMax p 1 s = match cut? p s with | none => [s] | some (t, r) => [t, r] := by
  unfold splitMax
  cases cut? p s with
  | none => rfl
  | some e => rfl

theorem splitMax_of_none {n : Nat} (h : cut? p s = none) : splitMax p n s = [s] := by
  cases n with
  | zero => rfl
  | succ n => rw [splitMax, h]

theorem splitMax_ne_nil (p : List α) (n : Nat) (s : List α) : splitMax p n s ≠ [] := by
  cases n with
  | zero => simp [splitMax]
  | succ n =>
    unfold splitMax
    split <;> simp

/-- The first piece is the text before the first cut, and there are more. -/
theorem split_of_some (hp : p ≠ []) (h : cut? p s = some (t, r)) : ∃ piece pieces, split p s = t :: piece :: pieces := by
  unfold split
  cases s with
  | nil => simp [cut?_nil hp] at h
  | cons c s =>
    obtain ⟨piece, pieces, hrest⟩ := List.exists_cons_of_ne_nil (splitMax_ne_nil p s.length r)
    exact ⟨piece, pieces, by rw [List.length_cons, splitMax, h, ← hrest]⟩

/-- Two pieces where the text behind the first cut cannot be cut again. -/
theorem split_eq_pair (hp : p ≠ []) (h : cut? p s = some (t, r)) (hr : cut? p r = none) : split p s = [t, r] := by
  unfold split
  cases s with
  | nil => simp [cut?_nil hp] at h
  | cons c s => rw [List.length_cons, splitMax, h]; exact congrArg _ (splitMax_of_none hr)

/-! ## The same cut seen through a map or an encoding -/

theorem cut?_map {β : Type} [DecidableEq β] {f : α → β} (hf : Function.Injective f) (p s : List α) :
    cut? (p.map f) (s.map f) = (cut? p s).map fun e => (e.1.map f, e.2.map f) := by
  induction s with
  | nil => cases p <;> rfl
  | cons c s ih =>
    have hpre : p.map f <+: f c :: s.map f ↔ p <+: c :: s := by
      rw [← List.map_cons]
      constructor
      · intro h
        obtain ⟨l, hl, heq⟩ := List.prefix_map_iff.1 h
        rwa [List.map_inj_right (fun _ _ h => hf h) |>.1 heq]
      · exact fun h => h.map f
    rw [List.map_cons, cut?_cons, cut?_cons, ih]
    by_cases h : p <+: c :: s
    · rw [if_pos h, if_pos (hpre.2 h), ← List.map_cons]
      simp
    · rw [if_neg h, if_neg (mt hpre.1 h)]
      cases cut? p s <;> rfl

end

/-- In the bytes of a text an ASCII pattern cuts where it cuts the text. -/
theorem cut?_encode {p : List Char} (hp : ∀ c ∈ p, c.toNat < 0x80) (hne : p ≠ []) (s : List Char) :
    cut? (Utf8.encode p) (Utf8.encode s) = (cut? p s).map fun e => (Utf8.encode e.1, Utf8.encode e.2) := by
  have hne' : Utf8.encode p ≠ [] := by
    cases p with
    | nil => exact absurd rfl hne
    | cons c p => simp [String.utf8EncodeChar_ne_nil]
  cases h : cut? p s with
  | none =>
    rw [cut?_eq_none_iff hne] at h
    rw [Option.map_none, cut?_eq_none_iff hne']
    rintro ⟨y, x, hyx⟩
    obtain ⟨ds, es, hs, -, -⟩ := Utf8.encode_infix hp hne hyx.symm
    exact h ⟨ds, es, hs.symm⟩
  | some e =>
    obtain ⟨t, r⟩ := e
    obtain ⟨hs, hmin⟩ := (cut?_eq_some_iff hne).1 h
    rw [Option.map_some, cut?_eq_some_iff hne']
    refine ⟨by simp [hs], fun y x hyx => ?_⟩
    obtain ⟨ds, es, hds, rfl, -⟩ := Utf8.encode_infix hp hne hyx
    have hpre : t <+: ds := by
      have ht : t <+: s := ⟨p ++ r, by rw [hs, List.append_assoc]⟩
      have hd : ds <+: s := ⟨p ++ es, by rw [hds, List.append_assoc]⟩
      exact List.prefix_of_prefix_length_le ht hd (hmin ds es hds)
    obtain ⟨u, rfl⟩ := hpre
    simp

end Lib
