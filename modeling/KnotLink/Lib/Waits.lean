import KnotLink.Lib.Run
import Mathlib.Data.List.Basic
/-!
# Waits that nest

Whoever waits for an answer in an event loop can be made to wait again before it goes on. The waits form a stack, of
which only the innermost can end. Answers carry no number: each one reaches every wait of the stack, and a wait ends
with the last answer that has come. So of two nested waits at most one ends with the answer to its own question, and
where answers come one by one, in order and not ahead of the questions, all do exactly if none is nested.
-/
namespace Lib

structure Wait where
  /-- The number of its question among all questions, from one. -/
  number : Nat
  /-- How many answers had come when it began. -/
  since : Nat
  deriving DecidableEq, Repr

/-- A wait that is over. -/
structure Ended where
  number : Nat
  /-- How many answers had come when it ended, the last of which it has ended with. -/
  seen : Nat
  deriving DecidableEq, Repr

/-- It has ended with the answer to its own question. -/
def Ended.Own (d : Ended) : Prop := d.seen = d.number

instance (d : Ended) : Decidable d.Own := inferInstanceAs (Decidable (_ = _))

structure Waits where
  asked : Nat
  seen : Nat
  /-- Innermost first. -/
  stack : List Wait
  /-- In the order they have ended. -/
  ended : List Ended
  deriving DecidableEq, Repr

inductive WaitAct where
  /-- A question that nobody waits for. -/
  | send
  | ask
  /-- So many answers at once. -/
  | answers (n : Nat)
  | ret
  deriving DecidableEq, Repr

namespace Waits

def start : Waits := ⟨0, 0, [], []⟩

/-- No wait has its answer and has yet to end. -/
def Idle (s : Waits) : Prop := ∀ w ∈ s.stack.head?, w.since = s.seen

instance (s : Waits) : Decidable s.Idle := inferInstanceAs (Decidable (∀ w ∈ s.stack.head?, _))

def step (s : Waits) : WaitAct → Option Waits
  | .send => some { s with asked := s.asked + 1 }
  | .ask => some { s with asked := s.asked + 1, stack := ⟨s.asked + 1, s.seen⟩ :: s.stack }
  | .answers n => if s.Idle then some { s with seen := s.seen + n } else none
  | .ret =>
    match s.stack with
    | [] => none
    | w :: stack =>
      if w.since < s.seen then some { s with stack, ended := s.ended ++ [⟨w.number, s.seen⟩] } else none

def system : System Waits WaitAct := ⟨step⟩

variable {s t u : Waits} {a : WaitAct} {as : List WaitAct} {ok : Waits → WaitAct → Prop}

theorem ret_cases (h : step s .ret = some u) : ∃ w stack, s.stack = w :: stack ∧ w.since < s.seen ∧
    u = { s with stack, ended := s.ended ++ [⟨w.number, s.seen⟩] } := by
  simp only [step] at h
  split at h
  · cases h
  · rename_i w stack hstack
    split at h
    · rename_i hseen
      exact ⟨w, stack, hstack, hseen, (Option.some.inj h).symm⟩
    · cases h

theorem answers_cases {n : Nat} (h : step s (.answers n) = some u) :
    s.Idle ∧ u = { s with seen := s.seen + n } := by
  simp only [step] at h
  split at h
  · rename_i hidle
    exact ⟨hidle, (Option.some.inj h).symm⟩
  · cases h

/-! ## Nested waits -/

/-- Those that have ended, as they ended, and those that have yet to end, as they will. -/
def numbers (s : Waits) : List Nat := s.ended.map (·.number) ++ s.stack.map (·.number)

/-- A new wait comes between those that have ended and the rest; nothing changes places. -/
theorem numbers_step (h : step s a = some u) : s.numbers.Sublist u.numbers := by
  cases a with
  | send =>
    cases h
    exact List.Sublist.refl _
  | ask =>
    cases h
    exact (List.Sublist.refl _).append (List.sublist_cons_self _ _)
  | answers n =>
    obtain ⟨-, rfl⟩ := answers_cases h
    exact List.Sublist.refl _
  | ret =>
    obtain ⟨w, stack, hstack, -, rfl⟩ := ret_cases h
    simp [numbers, hstack]

theorem numbers_run (h : system.Runs ok s as t) : s.numbers.Sublist t.numbers := by
  induction h with
  | nil => exact List.Sublist.refl _
  | cons _ hst _ ih => exact (numbers_step hst).trans ih

/-- Answers only get more. -/
structure Sorted (s : Waits) : Prop where
  ended : s.ended.Pairwise fun d d' => d.seen ≤ d'.seen
  seen : ∀ d ∈ s.ended, d.seen ≤ s.seen
  stack : ∀ w ∈ s.stack, w.number ≤ s.asked

theorem sorted_step (hI : Sorted s) (h : step s a = some u) : Sorted u := by
  cases a with
  | send =>
    cases h
    exact ⟨hI.ended, hI.seen, fun w hw => Nat.le_succ_of_le (hI.stack w hw)⟩
  | ask =>
    cases h
    refine ⟨hI.ended, hI.seen, fun w hw => ?_⟩
    rcases List.mem_cons.1 hw with rfl | hw
    · exact Nat.le_refl _
    · exact Nat.le_succ_of_le (hI.stack w hw)
  | answers n =>
    obtain ⟨-, rfl⟩ := answers_cases h
    exact ⟨hI.ended, fun d hd => Nat.le_add_right_of_le (hI.seen d hd), hI.stack⟩
  | ret =>
    obtain ⟨w, stack, hstack, -, rfl⟩ := ret_cases h
    refine ⟨List.pairwise_append.2 ⟨hI.ended, List.pairwise_singleton _ _, fun d hd d' hd' => ?_⟩, fun d hd => ?_,
      fun x hx => hI.stack x (hstack ▸ List.mem_cons_of_mem _ hx)⟩
    · obtain rfl := List.mem_singleton.1 hd'
      exact hI.seen d hd
    · rcases List.mem_append.1 hd with hd | hd
      · exact hI.seen d hd
      · obtain rfl := List.mem_singleton.1 hd
        exact Nat.le_refl _

theorem sorted_run (h : system.Runs ok s as t) (hI : Sorted s) : Sorted t :=
  h.invariant (fun hI _ hst => sorted_step hI hst) hI

/-- **Of two nested waits at most one ends with its own answer**: the inner one has ended first, and what the outer
one ends with has come no earlier. -/
theorem Sorted.not_both_own (hI : Sorted s) {d d' : Ended} (hin : [d, d'].Sublist s.ended)
    (hnested : d'.number < d.number) : ¬ (d.Own ∧ d'.Own) := by
  rintro ⟨hd, hd'⟩
  have hpair := hI.ended.sublist hin
  have hle : d.seen ≤ d'.seen := List.rel_of_pairwise_cons hpair List.mem_cons_self
  rw [Ended.Own] at hd hd'
  omega

/-! ## All answers to their own questions -/

/-- Every question is waited for, and answers come one by one and not ahead of the questions. -/
def Timely (s : Waits) : WaitAct → Prop
  | .send => False
  | .answers n => n ≤ 1 ∧ s.seen + n ≤ s.asked
  | .ask | .ret => True

/-- No wait begins inside another. -/
def Flat (s : Waits) : WaitAct → Prop
  | .ask => s.stack = []
  | .send | .answers _ | .ret => True

/-- All waits so far have been one after another, each with its own answer. -/
structure InTurn (s : Waits) : Prop where
  own : ∀ d ∈ s.ended, d.Own
  stack : s.stack = [] ∧ s.seen = s.asked ∨
    ∃ w, s.stack = [w] ∧ w.number = s.asked ∧ w.since + 1 = s.asked ∧ (s.seen = w.since ∨ s.seen = s.asked)

theorem inTurn_step (hI : InTurn s) (ha : Timely s a ∧ Flat s a) (h : step s a = some u) : InTurn u := by
  obtain ⟨hown, hstack⟩ := hI
  cases a with
  | send => exact ha.1.elim
  | ask =>
    cases h
    rcases hstack with ⟨-, hseen⟩ | ⟨w, hw, -⟩
    · refine ⟨hown, .inr ⟨_, by rw [show s.stack = [] from ha.2], rfl, ?_, .inl rfl⟩⟩
      change s.seen + 1 = s.asked + 1
      omega
    · cases hw.symm.trans ha.2
  | answers n =>
    obtain ⟨hidle, rfl⟩ := answers_cases h
    obtain ⟨⟨hone, hle⟩, -⟩ := ha
    rcases hstack with ⟨hnil, hseen⟩ | ⟨w, hw, hnumber, hsince, -⟩
    · exact ⟨hown, .inl ⟨hnil, show s.seen + n = s.asked by omega⟩⟩
    · have hs : w.since = s.seen := hidle w (by rw [hw]; rfl)
      refine ⟨hown, .inr ⟨w, hw, hnumber, hsince, ?_⟩⟩
      change s.seen + n = w.since ∨ s.seen + n = s.asked
      omega
  | ret =>
    obtain ⟨v, stack, hv, hlt, rfl⟩ := ret_cases h
    rcases hstack with ⟨hnil, -⟩ | ⟨w, hw, hnumber, hsince, hseen⟩
    · cases hnil.symm.trans hv
    · obtain ⟨rfl, rfl⟩ := List.cons.inj (hw.symm.trans hv)
      have hall : s.seen = s.asked := by omega
      refine ⟨fun d hd => ?_, .inl ⟨rfl, hall⟩⟩
      rcases List.mem_append.1 hd with hd | hd
      · exact hown d hd
      · obtain rfl := List.mem_singleton.1 hd
        exact hall.trans hnumber.symm

/-- A wait that begins inside another, in a run at whose end both have ended, takes one of the two answers. -/
theorem not_all_own (hI : Sorted s) (hne : s.stack ≠ []) (h : step s .ask = some u) (hrun : system.Runs ok u as t)
    (hend : t.stack = []) : ¬ ∀ d ∈ t.ended, d.Own := by
  intro hown
  obtain ⟨w, stack, hstack⟩ := List.exists_cons_of_ne_nil hne
  have hin : [s.asked + 1, w.number].Sublist (t.ended.map (·.number)) := by
    have hu : [s.asked + 1, w.number].Sublist u.numbers := by
      cases h
      simp only [numbers, hstack, List.map_cons]
      exact (((List.nil_sublist _).cons_cons w.number).cons_cons (s.asked + 1)).trans (List.sublist_append_right _ _)
    have ht := hu.trans (numbers_run hrun)
    rwa [numbers, hend, List.map_nil, List.append_nil] at ht
  obtain ⟨ds, hds, hmap⟩ := List.sublist_map_iff.1 hin
  obtain ⟨d, d', rfl⟩ : ∃ d d', ds = [d, d'] := by
    rcases ds with _ | ⟨d, _ | ⟨d', _ | _⟩⟩ <;> simp at hmap
    exact ⟨d, d', rfl⟩
  simp only [List.map_cons, List.map_nil, List.cons.injEq, and_true] at hmap
  obtain ⟨hd, hd'⟩ := hmap
  have hsorted := sorted_run hrun (sorted_step hI h)
  have hw := hI.stack w (by rw [hstack]; exact List.mem_cons_self)
  exact hsorted.not_both_own hds (by omega) ⟨hown d (hds.subset (by simp)), hown d' (hds.subset (by simp))⟩

/-- **Every wait ends with its own answer exactly if none begins inside another**, in a run at whose end all have
ended. -/
theorem own_iff_flat (h : system.Runs Timely s as t) (hI : Sorted s) (hs : InTurn s) (hend : t.stack = []) :
    (∀ d ∈ t.ended, d.Own) ↔ system.Runs (fun s a => Timely s a ∧ Flat s a) s as t := by
  constructor
  · intro hown
    clear hs
    induction h with
    | nil => exact .nil
    | @cons s u t a as hok hst hrest ih =>
      refine .cons ⟨hok, ?_⟩ hst (ih (sorted_step hI hst) hend hown)
      cases a with
      | ask =>
        by_contra hne
        exact not_all_own hI hne hst hrest hend hown
      | send | answers n | ret => trivial
  · intro hflat
    exact (hflat.invariant (fun hI ha hst => inTurn_step hI ha hst) hs).own

end Waits
end Lib
