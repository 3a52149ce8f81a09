import Mathlib.Data.List.Nodup
/-!
# Maps with an order of entries

A `Dict` lists its entries in the order a loop over them meets, every key once. `insert` gives a key it
has a new value in its place and puts a new key last. Two maps are the `Same` when they give every key
the same value, whatever their orders.
-/
namespace Lib

structure Dict (κ ν : Type) where
  entries : List (κ × ν)
  nodup : (entries.map Prod.fst).Nodup

namespace Dict
variable {κ ν : Type} [DecidableEq κ]

def empty : Dict κ ν := ⟨[], .nil⟩

/-- All entries gone. -/
def clear (_d : Dict κ ν) : Dict κ ν := empty

/-- The value of a key. -/
def get? (d : Dict κ ν) (k : κ) : Option ν := d.entries.lookup k

/-- `d == e` of two maps. -/
def Same (d e : Dict κ ν) : Prop := ∀ k, d.get? k = e.get? k

/-- What `insert` does to the entries. -/
def insertEntry (k : κ) (v : ν) : List (κ × ν) → List (κ × ν)
  | [] => [(k, v)]
  | e :: es => if e.1 = k then (k, v) :: es else e :: insertEntry k v es

theorem mem_insertEntry {k : κ} {v : ν} {es : List (κ × ν)} {e : κ × ν} (h : e ∈ insertEntry k v es) :
    e = (k, v) ∨ e ∈ es := by
  induction es with
  | nil => exact .inl (by simpa [insertEntry] using h)
  | cons e' es ih =>
    unfold insertEntry at h
    split at h
    · rcases List.mem_cons.1 h with rfl | h
      · exact .inl rfl
      · exact .inr (List.mem_cons_of_mem _ h)
    · rcases List.mem_cons.1 h with rfl | h
      · exact .inr List.mem_cons_self
      · exact (ih h).imp_right (List.mem_cons_of_mem _)

theorem nodup_insertEntry (k : κ) (v : ν) {es : List (κ × ν)} (h : (es.map Prod.fst).Nodup) :
    ((insertEntry k v es).map Prod.fst).Nodup := by
  induction es with
  | nil => simp [insertEntry]
  | cons e es ih =>
    obtain ⟨he, hes⟩ := List.nodup_cons.1 h
    unfold insertEntry
    split
    · rename_i hk
      rwa [← hk]
    · rename_i hk
      refine List.nodup_cons.2 ⟨fun hm => ?_, ih hes⟩
      obtain ⟨e', he', hfst⟩ := List.mem_map.1 hm
      rcases mem_insertEntry he' with rfl | hmem
      · exact hk hfst.symm
      · exact he (List.mem_map.2 ⟨e', hmem, hfst⟩)

theorem lookup_cons (j : κ) (e : κ × ν) (es : List (κ × ν)) :
    (e :: es).lookup j = if j = e.1 then some e.2 else es.lookup j := by
  obtain ⟨k, v⟩ := e
  by_cases h : j = k
  · subst h
    rw [List.lookup_cons_self, if_pos rfl]
  · rw [List.lookup_cons, beq_eq_false_iff_ne.2 h, if_neg h]

theorem lookup_insertEntry (k j : κ) (v : ν) (es : List (κ × ν)) :
    (insertEntry k v es).lookup j = if j = k then some v else es.lookup j := by
  induction es with
  | nil => rw [insertEntry, lookup_cons]
  | cons e es ih =>
    unfold insertEntry
    by_cases he : e.1 = k
    · rw [if_pos he, lookup_cons, lookup_cons, he]
      by_cases h : j = k <;> simp [h]
    · rw [if_neg he, lookup_cons, lookup_cons, ih]
      by_cases hj : j = e.1
      · simp [hj, he]
      · simp [hj]

/-- `d[k] = v`. -/
def insert (d : Dict κ ν) (k : κ) (v : ν) : Dict κ ν := ⟨insertEntry k v d.entries, nodup_insertEntry k v d.nodup⟩

/-- `d.erase(k)`. -/
def erase (d : Dict κ ν) (k : κ) : Dict κ ν :=
  ⟨d.entries.filter fun e => e.1 ≠ k, d.nodup.sublist (List.filter_sublist.map Prod.fst)⟩

/-- The entries put in one after another. -/
def insertAll (d : Dict κ ν) (es : List (κ × ν)) : Dict κ ν := es.foldl (fun d e => d.insert e.1 e.2) d

theorem get?_insert (d : Dict κ ν) (k j : κ) (v : ν) :
    (d.insert k v).get? j = if j = k then some v else d.get? j :=
  lookup_insertEntry k j v d.entries

theorem get?_erase (d : Dict κ ν) (k j : κ) : (d.erase k).get? j = if j = k then none else d.get? j := by
  simp only [get?, erase]
  induction d.entries with
  | nil => simp
  | cons e es ih =>
    rw [List.filter_cons, lookup_cons]
    by_cases he : e.1 = k
    · simp only [he, ne_eq, not_true_eq_false, decide_false, Bool.false_eq_true, if_false]
      rw [ih]
      by_cases hj : j = k <;> simp [hj]
    · simp only [he, ne_eq, not_false_eq_true, decide_true, if_true]
      rw [lookup_cons, ih]
      by_cases hj : j = e.1
      · simp [hj, he]
      · simp [hj]

theorem insertAll_append (d : Dict κ ν) (es fs : List (κ × ν)) :
    d.insertAll (es ++ fs) = (d.insertAll es).insertAll fs :=
  List.foldl_append

theorem get?_eq_some {d : Dict κ ν} {k : κ} {v : ν} : d.get? k = some v ↔ (k, v) ∈ d.entries := by
  obtain ⟨es, hd⟩ := d
  simp only [get?]
  induction es with
  | nil => simp
  | cons e es ih =>
    obtain ⟨he, hes⟩ := List.nodup_cons.1 hd
    obtain ⟨k', v'⟩ := e
    rw [lookup_cons, List.mem_cons, Prod.mk.injEq]
    by_cases h : k = k'
    · subst h
      have hno : (k, v) ∉ es := fun hm => he (List.mem_map.2 ⟨(k, v), hm, rfl⟩)
      simp [hno, eq_comm]
    · simp [h, ih hes]

/-- The last entry put in for a key gives its value. -/
theorem get?_insertAll {d : Dict κ ν} {es : List (κ × ν)} {k : κ} {v : ν} : (d.insertAll es).get? k = some v ↔
    (∃ before after, es = before ++ (k, v) :: after ∧ k ∉ after.map Prod.fst) ∨
      (k ∉ es.map Prod.fst ∧ d.get? k = some v) := by
  induction es generalizing d with
  | nil => simp [insertAll]
  | cons e es ih =>
    refine Iff.trans (b := ((d.insert e.1 e.2).insertAll es).get? k = some v) Iff.rfl ?_
    rw [ih, get?_insert, List.map_cons, List.mem_cons, not_or]
    constructor
    · rintro (⟨before, after, rfl, hno⟩ | ⟨hno, hv⟩)
      · exact .inl ⟨e :: before, after, rfl, hno⟩
      · split at hv
        · rename_i hk
          cases hk
          cases hv
          exact .inl ⟨[], es, rfl, hno⟩
        · rename_i hk
          exact .inr ⟨⟨hk, hno⟩, hv⟩
    · rintro (⟨before, after, hes, hno⟩ | ⟨⟨hk, hno⟩, hv⟩)
      · rcases before with _ | ⟨e', before⟩
        · obtain ⟨rfl, rfl⟩ := List.cons.inj hes
          exact .inr ⟨hno, if_pos rfl⟩
        · exact .inl ⟨before, after, (List.cons.inj hes).2, hno⟩
      · exact .inr ⟨hno, by rw [if_neg hk]; exact hv⟩

/-- Every entry of the map is an entry put in or was there. -/
theorem mem_insertAll {d : Dict κ ν} {es : List (κ × ν)} {e : κ × ν} (h : e ∈ (d.insertAll es).entries) :
    e ∈ es ∨ e ∈ d.entries := by
  induction es generalizing d with
  | nil => exact .inr h
  | cons e' es ih =>
    rcases ih h with h | h
    · exact .inl (List.mem_cons_of_mem _ h)
    · rcases mem_insertEntry h with rfl | h
      · exact .inl List.mem_cons_self
      · exact .inr h

omit [DecidableEq κ] in
theorem eq_of_entries {d e : Dict κ ν} (h : d.entries = e.entries) : d = e := by
  cases d
  cases h
  rfl

theorem insertEntry_of_not_mem {k : κ} (v : ν) {es : List (κ × ν)} (h : k ∉ es.map Prod.fst) :
    insertEntry k v es = es ++ [(k, v)] := by
  induction es with
  | nil => rfl
  | cons e es ih =>
    obtain ⟨hk, hes⟩ := not_or.1 (mt List.mem_cons.2 h)
    rw [insertEntry, if_neg (Ne.symm hk), ih hes, List.cons_append]

/-- New keys come behind the old ones, in order. -/
theorem entries_insertAll (d : Dict κ ν) {es : List (κ × ν)} (h : ((d.entries ++ es).map Prod.fst).Nodup) :
    (d.insertAll es).entries = d.entries ++ es := by
  induction es generalizing d with
  | nil => exact (List.append_nil _).symm
  | cons e es ih =>
    have hk : e.1 ∉ d.entries.map Prod.fst := by
      intro hm
      rw [List.map_append, List.map_cons] at h
      exact (List.nodup_append.1 h).2.2 _ hm _ List.mem_cons_self rfl
    have hd : (d.insert e.1 e.2).entries = d.entries ++ [e] := insertEntry_of_not_mem e.2 hk
    have := ih (d.insert e.1 e.2) (by rw [hd, List.append_assoc]; exact h)
    rw [hd, List.append_assoc] at this
    exact this

/-- A map is what its entries make. -/
theorem entries_insertAll_empty (d : Dict κ ν) : (empty.insertAll d.entries).entries = d.entries :=
  entries_insertAll empty (by simpa [empty] using d.nodup)

/-! ## Entries seen through maps of the keys and the values -/

section
variable {κ' ν' : Type} [DecidableEq κ'] {f : κ → κ'} {g : ν → ν'}

theorem insertEntry_map (hf : Function.Injective f) (k : κ) (v : ν) (es : List (κ × ν)) :
    insertEntry (f k) (g v) (es.map (Prod.map f g)) = (insertEntry k v es).map (Prod.map f g) := by
  induction es with
  | nil => rfl
  | cons e es ih =>
    rw [List.map_cons, insertEntry, insertEntry]
    by_cases hk : e.1 = k
    · simp [hk]
    · simp [hk, hf.eq_iff, ih]

theorem insertAll_map (hf : Function.Injective f) {d : Dict κ ν} {d' : Dict κ' ν'}
    (hd : d'.entries = d.entries.map (Prod.map f g)) (es : List (κ × ν)) :
    (d'.insertAll (es.map (Prod.map f g))).entries = (d.insertAll es).entries.map (Prod.map f g) := by
  induction es generalizing d d' with
  | nil => exact hd
  | cons e es ih =>
    have hstep : (d'.insert (f e.1) (g e.2)).entries = (d.insert e.1 e.2).entries.map (Prod.map f g) := by
      calc insertEntry (f e.1) (g e.2) d'.entries
          = insertEntry (f e.1) (g e.2) (d.entries.map (Prod.map f g)) := by rw [hd]
        _ = (insertEntry e.1 e.2 d.entries).map (Prod.map f g) := insertEntry_map hf e.1 e.2 d.entries
    exact ih hstep

end

end Dict
end Lib
