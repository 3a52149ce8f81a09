import KnotLink.Lib.Dict
import KnotLink.Lib.Split
import Mathlib.Data.List.Infix
import Mathlib.Logic.Relation
/-!
# Texts of key-value entries

A map is written as its entries `key eq value` with `sep` between them; reading cuts at every `sep`,
cuts each segment at its first `eq`, skips the segments without one and puts the rest into an empty map
from left to right. `read_write_iff`: reading undoes writing exactly for the `Clean` maps.
-/
namespace Lib.KeyValue
variable {α : Type} [DecidableEq α] {eq sep : α}

section
variable (eq sep : α)

def assign (e : List α × List α) : List α := e.1 ++ eq :: e.2

def write (es : List (List α × List α)) : List α := [sep].intercalate (es.map (assign eq))

/-- The entries a text holds, repeated keys included. -/
def entriesOf (s : List α) : List (List α × List α) := (s.splitOn sep).filterMap (cut? [eq])

def read (s : List α) : Dict (List α) (List α) := Dict.empty.insertAll (entriesOf eq sep s)

/-- No entry is cut apart: no `eq` or `sep` in a key, no `sep` in a value. -/
def Clean (es : List (List α × List α)) : Prop := ∀ e ∈ es, (eq ∉ e.1 ∧ sep ∉ e.1) ∧ sep ∉ e.2

instance (es : List (List α × List α)) : Decidable (Clean eq sep es) :=
  inferInstanceAs (Decidable (∀ e ∈ es, _))

end

/-- A segment assigns the text behind its first `eq` to the text before it; no later segment assigns to `k`. -/
def LastAssigned (eq sep : α) (s k v : List α) : Prop :=
  eq ∉ k ∧ ∃ before after, s.splitOn sep = before ++ (k ++ eq :: v) :: after ∧ ∀ w, k ++ eq :: w ∉ after

/-! ## How implementations come to the same text and the same map -/

omit [DecidableEq α] in
theorem write_cons (e : List α × List α) (es : List (List α × List α)) :
    write eq sep (e :: es) = assign eq e ++ es.flatMap fun e => sep :: assign eq e := by
  unfold write
  induction es generalizing e with
  | nil => simp
  | cons e' es ih => rw [List.map_cons, List.map_cons, List.intercalate_cons_cons, ← List.map_cons, ih e']; simp

/-- A loop that puts in each segment's entry, if it has one, reads the segments. -/
theorem foldl_segments {step : Dict (List α) (List α) → List α → Dict (List α) (List α)}
    (h : ∀ d g, step d g = d.insertAll (cut? [eq] g).toList) (d : Dict (List α) (List α)) (gs : List (List α)) :
    gs.foldl step d = d.insertAll (gs.filterMap (cut? [eq])) := by
  induction gs generalizing d with
  | nil => rfl
  | cons g gs ih =>
    rw [List.foldl_cons, ih, h]
    cases hg : cut? [eq] g with
    | none => rw [List.filterMap_cons_none hg]; rfl
    | some e => rw [List.filterMap_cons_some hg]; rfl

/-- The entry of the only segment. -/
theorem entriesOf_of_none {s : List α} (h : cut? [sep] s = none) : entriesOf eq sep s = (cut? [eq] s).toList := by
  rw [cut?_eq_none_iff (by simp), List.singleton_infix_iff] at h
  rw [entriesOf, List.splitOn_eq_singleton h]
  cases hs : cut? [eq] s with
  | none => rw [List.filterMap_cons_none hs]; rfl
  | some e => rw [List.filterMap_cons_some hs]; rfl

/-- The entry of the first segment, then those of the rest. -/
theorem entriesOf_of_some {s g r : List α} (h : cut? [sep] s = some (g, r)) :
    entriesOf eq sep s = (cut? [eq] g).toList ++ entriesOf eq sep r := by
  obtain ⟨rfl, hg⟩ := cut?_singleton.1 h
  rw [entriesOf, List.splitOn_append_cons_self_of_not_mem hg]
  cases hs : cut? [eq] g with
  | none => rw [List.filterMap_cons_none hs]; rfl
  | some e => rw [List.filterMap_cons_some hs]; rfl

/-- **The last assignment wins.** -/
theorem get?_read {s k v : List α} : (read eq sep s).get? k = some v ↔ LastAssigned eq sep s k v := by
  have hkey : ∀ gs : List (List α), eq ∉ k → (k ∉ (gs.filterMap (cut? [eq])).map Prod.fst ↔ ∀ w, k ++ eq :: w ∉ gs) := by
    intro gs hk
    constructor
    · intro hno w hmem
      exact hno (List.mem_map.2 ⟨(k, w), List.mem_filterMap.2 ⟨_, hmem, cut?_singleton.2 ⟨rfl, hk⟩⟩, rfl⟩)
    · intro hno hmem
      obtain ⟨⟨k', w⟩, he, rfl⟩ := List.mem_map.1 hmem
      obtain ⟨g, hg, hcut⟩ := List.mem_filterMap.1 he
      exact hno w ((cut?_singleton.1 hcut).1 ▸ hg)
  rw [read, Dict.get?_insertAll]
  constructor
  · rintro (⟨es, fs, hes, hno⟩ | ⟨-, hnone⟩)
    · obtain ⟨gs, hs, hsegs, rfl, hrest⟩ := List.filterMap_eq_append_iff.1 hes
      obtain ⟨skipped, g, after, rfl, -, hcut, rfl⟩ := List.filterMap_eq_cons_iff.1 hrest
      obtain ⟨rfl, hk⟩ := cut?_singleton.1 hcut
      exact ⟨hk, gs ++ skipped, after, by rw [hsegs, List.append_assoc], (hkey after hk).1 hno⟩
    · cases hnone
  · rintro ⟨hk, before, after, hsegs, hno⟩
    have hcut : cut? [eq] (k ++ eq :: v) = some (k, v) := cut?_singleton.2 ⟨rfl, hk⟩
    refine .inl ⟨before.filterMap (cut? [eq]), after.filterMap (cut? [eq]), ?_, (hkey after hk).2 hno⟩
    rw [entriesOf, hsegs, List.filterMap_append, List.filterMap_cons_some hcut]

/-! ## Reading what was written -/

theorem not_mem_splitOn {s g : List α} (h : g ∈ s.splitOn sep) : sep ∉ g := by
  induction s generalizing g with
  | nil =>
    rw [List.splitOn_nil, List.mem_singleton] at h
    simp [h]
  | cons c s ih =>
    rw [List.splitOn_cons_eq_if_modifyHead] at h
    split at h
    · rcases List.mem_cons.1 h with rfl | h
      · simp
      · exact ih h
    · rename_i hc
      cases hs : s.splitOn sep with
      | nil => exact absurd hs (List.splitOn_ne_nil sep s)
      | cons g₀ gs =>
        rw [hs, List.modifyHead_cons] at h
        rcases List.mem_cons.1 h with rfl | h
        · have hno : sep ∉ g₀ := ih (hs ▸ List.mem_cons_self)
          exact List.not_mem_cons_of_ne_of_not_mem (fun h => hc (beq_iff_eq.2 h.symm)) hno
        · exact ih (hs ▸ List.mem_cons_of_mem _ h)

/-- Whatever is read is clean. -/
theorem clean_entriesOf (s : List α) : Clean eq sep (entriesOf eq sep s) := by
  intro e he
  obtain ⟨g, hg, hcut⟩ := List.mem_filterMap.1 he
  obtain ⟨rfl, heq⟩ := cut?_singleton.1 hcut
  have hsep := not_mem_splitOn hg
  simp only [List.mem_append, List.mem_cons, not_or] at hsep
  exact ⟨⟨heq, hsep.1⟩, hsep.2.2⟩

theorem entriesOf_write (hne : eq ≠ sep) {es : List (List α × List α)} (h : Clean eq sep es) :
    entriesOf eq sep (write eq sep es) = es := by
  have hcut : ∀ es', Clean eq sep es' → (es'.map (assign eq)).filterMap (cut? [eq]) = es' := by
    intro es' h'
    induction es' with
    | nil => rfl
    | cons e es' ih =>
      have he : cut? [eq] (assign eq e) = some e := cut?_singleton.2 ⟨rfl, (h' e List.mem_cons_self).1.1⟩
      rw [List.map_cons, List.filterMap_cons_some he, ih fun x hx => h' x (List.mem_cons_of_mem _ hx)]
  unfold entriesOf write
  cases es with
  | nil => simp [cut?_nil]
  | cons e es =>
    rw [List.splitOn_intercalate sep _ (by simp), hcut _ h]
    intro g hg
    obtain ⟨e', he', rfl⟩ := List.mem_map.1 hg
    obtain ⟨⟨-, hk⟩, hv⟩ := h e' he'
    simp [assign, hk, hv, hne.symm]

/-- What clean entries are written as is read in their order. -/
theorem entries_read_write (hne : eq ≠ sep) {m : Dict (List α) (List α)} (h : Clean eq sep m.entries) :
    (read eq sep (write eq sep m.entries)).entries = m.entries := by
  rw [read, entriesOf_write hne h, Dict.entries_insertAll_empty]

/-- What was read is written as a text that reads the same. -/
theorem read_write_read (hne : eq ≠ sep) (s : List α) :
    read eq sep (write eq sep (read eq sep s).entries) = read eq sep s := by
  refine Dict.eq_of_entries (entries_read_write hne fun e he => ?_)
  rcases Dict.mem_insertAll he with h | h
  · exact clean_entriesOf s e h
  · cases h

/-- **Reading undoes writing exactly for clean maps**, in whatever order the entries are written. -/
theorem read_write_iff (hne : eq ≠ sep) (m : Dict (List α) (List α)) :
    (read eq sep (write eq sep m.entries)).Same m ↔ Clean eq sep m.entries := by
  constructor
  · intro hsame e he
    have hget := hsame e.1
    rw [Dict.get?_eq_some.2 he, Dict.get?_eq_some] at hget
    rcases Dict.mem_insertAll hget with h | h
    · exact clean_entriesOf _ _ h
    · cases h
  · intro h k
    rw [Dict.get?, entries_read_write hne h, Dict.get?]

/-! ## Passing a map on -/

/-- The map is written in some order of its entries, and the text is read. -/
def Passes (eq sep : α) (m r : Dict (List α) (List α)) : Prop :=
  ∃ order : Dict (List α) (List α), order.Same m ∧ r = read eq sep (write eq sep order.entries)

theorem clean_congr {m m' : Dict (List α) (List α)} (h : m.Same m') :
    Clean eq sep m.entries ↔ Clean eq sep m'.entries := by
  have hmem : ∀ e, e ∈ m.entries ↔ e ∈ m'.entries := by
    intro e
    rw [← Dict.get?_eq_some, ← Dict.get?_eq_some, h e.1]
  simp only [Clean, hmem]

theorem clean_read (s : List α) : Clean eq sep (read eq sep s).entries := by
  intro e he
  rcases Dict.mem_insertAll he with h | h
  · exact clean_entriesOf s e h
  · cases h

theorem Passes.same {m r : Dict (List α) (List α)} (hne : eq ≠ sep) (h : Passes eq sep m r)
    (hclean : Clean eq sep m.entries) : r.Same m := by
  obtain ⟨order, hsame, rfl⟩ := h
  intro k
  rw [(read_write_iff hne order).2 ((clean_congr hsame).2 hclean) k, hsame k]

/-- **A map comes through any number of hands exactly if it is clean.** -/
theorem passed_iff {m r : Dict (List α) (List α)} (hne : eq ≠ sep) (h : Relation.TransGen (Passes eq sep) m r) :
    r.Same m ↔ Clean eq sep m.entries := by
  constructor
  · intro hsame
    have hr : Clean eq sep r.entries := by
      cases h with
      | single h => obtain ⟨order, -, rfl⟩ := h; exact clean_read _
      | tail _ h => obtain ⟨order, -, rfl⟩ := h; exact clean_read _
    exact (clean_congr hsame).1 hr
  · intro hclean
    induction h with
    | single h => exact h.same hne hclean
    | tail _ h ih => exact fun k => (h.same hne ((clean_congr ih).2 hclean) k).trans (ih k)

end Lib.KeyValue
