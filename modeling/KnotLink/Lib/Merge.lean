import Mathlib.Data.List.Basic
import Mathlib.Logic.Function.Basic
/-!
# Lists merged into one

Several sources, one list: `Merges parts all` says that `all` holds the elements of each source in their order,
tagged with the source, and nothing else. A merge of images is the image of a merge (`Merges.lift`), and selecting
elements of a merge selects them in every fromSource (`Merges.filterMap`).
-/
namespace Lib
variable {ι α β : Type}

section
variable [DecidableEq ι]

/-- What one source has contributed. -/
def fromSource (i : ι) (all : List (ι × α)) : List α := (all.filter (·.1 = i)).map (·.2)

def Merges (parts : ι → List α) (all : List (ι × α)) : Prop := ∀ i, fromSource i all = parts i

theorem fromSource_cons (i : ι) (a : ι × α) (all : List (ι × α)) :
    fromSource i (a :: all) = if a.1 = i then a.2 :: fromSource i all else fromSource i all := by
  by_cases h : a.1 = i <;> simp [fromSource, h]

theorem mem_fromSource {i : ι} {a : α} {all : List (ι × α)} : a ∈ fromSource i all ↔ (i, a) ∈ all := by
  simp only [fromSource, List.mem_map, List.mem_filter, decide_eq_true_eq]
  constructor
  · rintro ⟨⟨j, b⟩, ⟨hmem, rfl⟩, rfl⟩
    exact hmem
  · exact fun h => ⟨(i, a), ⟨h, rfl⟩, rfl⟩

/-- Every element comes from its source. -/
theorem Merges.mem {parts : ι → List α} {all : List (ι × α)} (h : Merges parts all) {a : ι × α} (ha : a ∈ all) :
    a.2 ∈ parts a.1 := by
  rw [← h a.1]
  exact mem_fromSource.2 ha

/-- What merges the images of some lists is the image of what merges the lists. -/
theorem Merges.lift {f : α → β} {parts : ι → List α} {all : List (ι × β)}
    (h : Merges (fun i => (parts i).map f) all) :
    ∃ all', Merges parts all' ∧ all'.map (Prod.map id f) = all := by
  induction all generalizing parts with
  | nil =>
    refine ⟨[], fun i => ?_, rfl⟩
    exact (List.map_eq_nil_iff.1 (h i).symm).symm
  | cons b all ih =>
    obtain ⟨j, b⟩ := b
    have hj := h j
    rw [fromSource_cons, if_pos rfl] at hj
    obtain ⟨a, as, has, rfl, hrest⟩ := List.map_eq_cons_iff.1 hj.symm
    -- the source `j` without its first element
    have htail : Merges (fun i => (Function.update parts j as i).map f) all := by
      intro i
      by_cases hi : i = j
      · subst hi
        simp only [Function.update_self]
        exact hrest.symm
      · simp only [Function.update_of_ne hi]
        have hother := h i
        rwa [fromSource_cons, if_neg (Ne.symm hi)] at hother
    obtain ⟨all', hall', rfl⟩ := ih htail
    refine ⟨(j, a) :: all', fun i => ?_, rfl⟩
    rw [fromSource_cons]
    by_cases hi : j = i
    · subst hi
      rw [if_pos rfl, hall' j, Function.update_self, has]
    · rw [if_neg hi, hall' i, Function.update_of_ne (Ne.symm hi)]

end

/-- The selected elements, with their sources. -/
def choose (f : α → Option β) (all : List (ι × α)) : List (ι × β) :=
  all.filterMap fun a => (f a.2).map fun b => (a.1, b)

theorem choose_cons (f : α → Option β) (a : ι × α) (all : List (ι × α)) :
    choose f (a :: all) = match f a.2 with
      | none => choose f all
      | some b => (a.1, b) :: choose f all := by
  rw [choose, List.filterMap_cons]
  cases f a.2 <;> rfl

theorem fromSource_choose [DecidableEq ι] (i : ι) (f : α → Option β) (all : List (ι × α)) :
    fromSource i (choose f all) = (fromSource i all).filterMap f := by
  induction all with
  | nil => rfl
  | cons a all ih =>
    rw [choose_cons, fromSource_cons]
    cases ha : f a.2 with
    | none =>
      by_cases hi : a.1 = i <;> simp [hi, ha, ih]
    | some b =>
      by_cases hi : a.1 = i <;> simp [hi, ha, ih, fromSource_cons]

theorem Merges.filterMap [DecidableEq ι] {parts : ι → List α} {all : List (ι × α)} (h : Merges parts all)
    (f : α → Option β) : Merges (fun i => (parts i).filterMap f) (choose f all) := by
  intro i
  rw [fromSource_choose, h i]

theorem map_snd_choose (f : α → Option β) (all : List (ι × α)) :
    (choose f all).map Prod.snd = (all.map Prod.snd).filterMap f := by
  induction all with
  | nil => rfl
  | cons a all ih =>
    rw [choose_cons, List.map_cons, List.filterMap_cons]
    cases f a.2 with
    | none => exact ih
    | some b => exact congrArg (b :: ·) ih

end Lib
