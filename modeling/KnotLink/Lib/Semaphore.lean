import Mathlib.Data.List.Nodup
/-!
# Counting semaphores

A semaphore has permits, at most `max` of them, a queue of waiters that are handed a permit in the order they came,
and threads that block until there is one. A release serves the blocked threads first: it hands a permit to the queue
only beyond as many as there are blocked. Once the semaphore is disposed, everything throws and the queue stays.

`Balanced` counts the permits given out; while it holds, a release by a holder throws only after the disposal
(`exists_release`).
-/
namespace Lib

structure Semaphore (ι : Type) where
  count : Nat
  max : Nat
  queue : List ι
  blocked : Nat
  disposed : Bool
  deriving DecidableEq, Repr

namespace Semaphore
variable {ι : Type}

/-- `n` permits, all of them free. -/
def new (ι : Type) (n : Nat) : Semaphore ι := ⟨n, n, [], 0, false⟩

/-- How a wait begins. -/
inductive Waited (ι : Type) where
  | threw
  | taken (s : Semaphore ι)
  | queued (s : Semaphore ι)
  | blocked (s : Semaphore ι)

/-- An asynchronous wait. -/
def waitAsync (s : Semaphore ι) (i : ι) : Waited ι :=
  if s.disposed then .threw
  else if 0 < s.count then .taken { s with count := s.count - 1 }
  else .queued { s with queue := s.queue ++ [i] }

/-- A synchronous wait; behind a queue it gets in line. -/
def wait (s : Semaphore ι) (i : ι) : Waited ι :=
  if s.disposed then .threw
  else if s.queue ≠ [] then s.waitAsync i
  else if 0 < s.count then .taken { s with count := s.count - 1 }
  else .blocked { s with blocked := s.blocked + 1 }

/-- A blocked thread finds a permit. -/
def take (s : Semaphore ι) : Option (Semaphore ι) :=
  if 0 < s.count then some { s with count := s.count - 1, blocked := s.blocked - 1 } else none

/-- A blocked thread gives up. -/
def giveUp (s : Semaphore ι) : Semaphore ι := { s with blocked := s.blocked - 1 }

/-- A waiter leaves the queue. -/
def remove [DecidableEq ι] (s : Semaphore ι) (i : ι) : Semaphore ι := { s with queue := s.queue.erase i }

/-- A permit comes back: the waiters that are handed one, or nothing where it throws. -/
def release (s : Semaphore ι) : Option (List ι × Semaphore ι) :=
  if s.disposed ∨ s.max ≤ s.count then none
  else
    let served := s.queue.take (s.count + 1 - s.blocked)
    some (served, { s with
      count := s.count + 1 - served.length
      queue := s.queue.drop (s.count + 1 - s.blocked) })

def dispose (s : Semaphore ι) : Semaphore ι := { s with disposed := true }

/-- So many permits are given out, and the others are there. -/
def Balanced (s : Semaphore ι) (held : Nat) : Prop := s.count + held = s.max

variable {s t : Semaphore ι} {i : ι} {held : Nat} {served : List ι}

/-- The ways a wait can begin. -/
inductive Begins (s : Semaphore ι) (i : ι) : Waited ι → Prop where
  | threw (hdead : s.disposed = true) : Begins s i .threw
  | taken (hlive : s.disposed = false) (hpos : 0 < s.count) : Begins s i (.taken { s with count := s.count - 1 })
  | queued (hlive : s.disposed = false) : Begins s i (.queued { s with queue := s.queue ++ [i] })
  | blocked (hlive : s.disposed = false) : Begins s i (.blocked { s with blocked := s.blocked + 1 })

theorem waitAsync_begins (s : Semaphore ι) (i : ι) : s.Begins i (s.waitAsync i) := by
  unfold waitAsync
  by_cases hdead : s.disposed = true
  · rw [if_pos hdead]
    exact .threw hdead
  · have hlive := eq_false_of_ne_true hdead
    rw [if_neg hdead]
    split
    · exact .taken hlive ‹_›
    · exact .queued hlive

theorem wait_begins (s : Semaphore ι) (i : ι) : s.Begins i (s.wait i) := by
  unfold wait
  by_cases hdead : s.disposed = true
  · rw [if_pos hdead]
    exact .threw hdead
  · have hlive := eq_false_of_ne_true hdead
    rw [if_neg hdead]
    split
    · exact waitAsync_begins s i
    · split
      · exact .taken hlive ‹_›
      · exact .blocked hlive

theorem take_eq (h : s.take = some t) : t = { s with count := s.count - 1, blocked := s.blocked - 1 } ∧ 0 < s.count := by
  unfold take at h
  split at h <;> cases h
  exact ⟨rfl, ‹_›⟩

/-- What a release does, apart from how many it serves. -/
theorem release_spec (h : s.release = some (served, t)) : s.disposed = false ∧ t.disposed = false ∧ t.max = s.max ∧
    t.blocked = s.blocked ∧ s.queue = served ++ t.queue ∧ t.count + served.length = s.count + 1 := by
  unfold release at h
  split at h
  · cases h
  · rename_i hok
    rw [not_or, Bool.not_eq_true] at hok
    cases h
    refine ⟨hok.1, hok.1, rfl, rfl, (List.take_append_drop _ _).symm, ?_⟩
    have : (s.queue.take (s.count + 1 - s.blocked)).length ≤ s.count + 1 := by
      rw [List.length_take]
      omega
    simp only
    omega

/-- A holder's release throws only after the disposal. -/
theorem Balanced.exists_release (h : s.Balanced (held + 1)) (hlive : s.disposed = false) :
    ∃ served t, s.release = some (served, t) := by
  unfold Balanced at h
  unfold Semaphore.release
  rw [if_neg (by simp only [hlive, Bool.false_eq_true, false_or]; omega)]
  exact ⟨_, _, rfl⟩

end Semaphore
end Lib
