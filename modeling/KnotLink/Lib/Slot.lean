import KnotLink.Lib.Run
/-!
# One slot for the one who waits

A call hands its request over, then puts itself into a slot; a response goes to whoever is in the slot and
leaves it empty. Calls come one at a time and begin when the slot is empty, and each written request gets
one response. `alone_step`: a response reaches its own call exactly if the call is in the slot when it comes.
-/
namespace Lib.Slot
variable {τ : Type}

/-- Where a call stands. -/
inductive Phase (τ : Type) where
  | begun
  /-- Its request is handed over, or was refused. -/
  | sent
  /-- It was put into the slot. -/
  | waiting
  | answered (m : τ)
  /-- It has given up waiting. -/
  | over
  /-- It has ended otherwise. -/
  | failed
  deriving DecidableEq, Repr

structure State (τ : Type) where
  holder : Option Nat
  phases : List (Phase τ)
  /-- Requests that are handed over and not yet written. -/
  queue : List Nat
  /-- The calls whose requests were written, in order. -/
  requests : List Nat
  /-- How many responses have come. -/
  handed : Nat
  deriving DecidableEq, Repr

inductive Act (τ : Type) where
  | call
  | refuse (k : Nat)
  | fail (k : Nat)
  | submit (k : Nat)
  | write
  | register (k : Nat)
  | respond (m : τ)
  | expire (k : Nat)
  deriving DecidableEq, Repr

inductive Step (s : State τ) : Act τ → State τ → Prop where
  | call : Step s .call { s with phases := s.phases ++ [.begun] }
  /-- The request is not handed over, and the call does not notice. -/
  | refuse {k : Nat} (hk : s.phases[k]? = some .begun) : Step s (.refuse k) { s with phases := s.phases.set k .sent }
  | fail {k : Nat} (hk : s.phases[k]? = some .begun) : Step s (.fail k) { s with phases := s.phases.set k .failed }
  | submit {k : Nat} (hk : s.phases[k]? = some .begun) :
      Step s (.submit k) { s with phases := s.phases.set k .sent, queue := s.queue ++ [k] }
  | write {k : Nat} {rest : List Nat} (hq : s.queue = k :: rest) :
      Step s .write { s with queue := rest, requests := s.requests ++ [k] }
  | register {k : Nat} (hk : s.phases[k]? = some .sent) :
      Step s (.register k) { s with holder := some k, phases := s.phases.set k .waiting }
  | missed {m : τ} (hh : s.holder = none) : Step s (.respond m) { s with handed := s.handed + 1 }
  | reached {m : τ} {k : Nat} (hh : s.holder = some k) (hk : s.phases[k]? = some .waiting) :
      Step s (.respond m) { s with holder := none, handed := s.handed + 1, phases := s.phases.set k (.answered m) }
  | late {m : τ} {k : Nat} (hh : s.holder = some k) (hk : s.phases[k]? = some .over) :
      Step s (.respond m) { s with holder := none, handed := s.handed + 1 }
  | expire {k : Nat} (hk : s.phases[k]? = some .waiting) : Step s (.expire k) { s with phases := s.phases.set k .over }

/-- One caller that begins with an empty slot, and a service that answers what was written, in order. -/
def OneByOne (answer : Nat → τ) (s : State τ) : Act τ → Prop
  | .call => s.holder = none ∧ ∀ p ∈ s.phases, p ≠ .begun ∧ p ≠ .sent
  | .respond m => s.requests[s.handed]?.map answer = some m
  | _ => True

/-- Every response that has come has reached its call, unless that had given up. -/
def Answered (answer : Nat → τ) (s : State τ) : Prop :=
  ∀ n k, n < s.handed → s.requests[n]? = some k →
    s.phases[k]? = some (.answered (answer k)) ∨ s.phases[k]? = some .over

/-- A response comes when a call is in the slot. -/
def Registered (s : State τ) : Act τ → Prop
  | .respond _ => s.holder ≠ none
  | _ => True

/-- The requests without a response. -/
def State.unanswered (s : State τ) : List Nat := s.requests.drop s.handed ++ s.queue

/-- The call has not come to the slot. -/
def State.OnWay (s : State τ) (k : Nat) : Prop := s.phases[k]? = some .begun ∨ s.phases[k]? = some .sent

/-- At most one call is on its way to the slot, then the slot is empty; at most one request is unanswered. -/
structure Alone (s : State τ) : Prop where
  last : ∀ k, s.OnWay k → s.holder = none ∧ k + 1 = s.phases.length
  begun : ∀ k : Nat, s.phases[k]? = some .begun → s.unanswered = []
  holder : ∀ k, s.holder = some k → s.phases[k]? = some .waiting ∨ s.phases[k]? = some .over
  unanswered : s.unanswered = [] ∨ ∃ k, s.unanswered = [k] ∧ (s.holder = some k ∨ s.phases[k]? = some .sent)
  handed : s.handed ≤ s.requests.length

variable {answer : Nat → τ} {s u : State τ} {a : Act τ}

theorem alone_start : Alone (⟨none, [], [], [], 0⟩ : State τ) where
  last k hk := by simp [State.OnWay] at hk
  begun k hk := by simp at hk
  holder k hk := by cases hk
  unanswered := .inl rfl
  handed := Nat.le_refl 0

/-- Settled calls stay settled. -/
theorem Answered.mono (hP : Answered answer s) (hh : u.handed = s.handed)
    (hr : ∀ n : Nat, n < s.handed → u.requests[n]? = s.requests[n]?)
    (hp : ∀ (k : Nat) (p : Phase τ), s.phases[k]? = some p → p = .answered (answer k) ∨ p = .over →
      u.phases[k]? = some p) : Answered answer u := by
  intro n k hn hk
  rw [hh] at hn
  rw [hr n hn] at hk
  exact (hP n k hn hk).imp (fun h => hp k _ h (.inl rfl)) (fun h => hp k _ h (.inr rfl))

/-- A call that moves, of those that are not settled, leaves the settled ones. -/
theorem settled_set {ps : List (Phase τ)} {k : Nat} {p q : Phase τ} (hk : ps[k]? = some p)
    (hp : p ≠ .answered (answer k) ∧ p ≠ .over) (j : Nat) (r : Phase τ) (hj : ps[j]? = some r)
    (hr : r = .answered (answer j) ∨ r = .over) : (ps.set k q)[j]? = some r := by
  refine (getElem?_set_iff hk).2 (.inr ⟨?_, hj⟩)
  rintro rfl
  rw [hk] at hj
  cases hj
  exact hr.elim hp.1 hp.2

/-- While a call is on its way, no other one is. -/
theorem Alone.onWay_set (hI : Alone s) {k : Nat} (hk : s.OnWay k) {q : Phase τ} {j : Nat}
    (hj : (s.phases.set k q)[j]? = some .begun ∨ (s.phases.set k q)[j]? = some .sent) : j = k := by
  obtain ⟨p, hp⟩ : ∃ p, s.phases[k]? = some p := hk.elim (fun h => ⟨_, h⟩) (fun h => ⟨_, h⟩)
  by_cases hne : j = k
  · exact hne
  · have hway : s.OnWay j := by
      refine hj.imp (fun h => ?_) (fun h => ?_)
      all_goals
        rcases (getElem?_set_iff hp).1 h with ⟨rfl, -⟩ | ⟨-, h⟩
        · exact absurd rfl hne
        · exact h
    have h1 := (hI.last j hway).2
    have h2 := (hI.last k hk).2
    omega

/-- When it leaves the way, none is left on it. -/
theorem Alone.none_onWay (hI : Alone s) {k : Nat} (hk : s.OnWay k) {q : Phase τ} (hq : q ≠ .begun ∧ q ≠ .sent)
    (j : Nat) :
    ¬ ((s.phases.set k q)[j]? = some .begun ∨ (s.phases.set k q)[j]? = some .sent) := by
  intro hj
  obtain ⟨p, hp⟩ : ∃ p, s.phases[k]? = some p := hk.elim (fun h => ⟨_, h⟩) (fun h => ⟨_, h⟩)
  have hself : (s.phases.set k q)[k]? = some q := (getElem?_set_iff hp).2 (.inl ⟨rfl, rfl⟩)
  rw [hI.onWay_set hk hj, hself, Option.some.injEq, Option.some.injEq] at hj
  exact hj.elim hq.1 hq.2

theorem alone_call (hI : Alone s) (hP : Answered answer s) (hok : OneByOne answer s (.call : Act τ)) :
    Alone { s with phases := s.phases ++ [.begun] } ∧ Answered answer { s with phases := s.phases ++ [.begun] } := by
  obtain ⟨hslot, hphases⟩ := hok
  have hway : ∀ k, ¬ s.OnWay k := by
    rintro k (hk | hk)
    · exact (hphases _ (List.mem_of_getElem? hk)).1 rfl
    · exact (hphases _ (List.mem_of_getElem? hk)).2 rfl
  have hnone : s.unanswered = [] := by
    rcases hI.unanswered with h | ⟨k, -, h | h⟩
    · exact h
    · rw [hslot] at h
      cases h
    · exact absurd (.inr h) (hway k)
  refine ⟨⟨?_, fun _ _ => hnone, fun k hk => ?_, .inl hnone, hI.handed⟩, ?_⟩
  · rintro k hk
    refine ⟨hslot, ?_⟩
    have hnew : k = s.phases.length := by
      rcases hk with hk | hk
      · rcases getElem?_concat_iff.1 hk with ⟨rfl, -⟩ | hk
        · rfl
        · exact absurd (.inl hk) (hway k)
      · rcases getElem?_concat_iff.1 hk with ⟨rfl, -⟩ | hk
        · rfl
        · exact absurd (.inr hk) (hway k)
    simp [hnew]
  · rw [hslot] at hk
    cases hk
  · exact hP.mono rfl (fun _ _ => rfl) fun k p hk _ => getElem?_concat_iff.2 (.inr hk)

/-- The call hands its request over, or has it refused. -/
theorem alone_sent (hI : Alone s) (hP : Answered answer s) {k : Nat} (hk : s.phases[k]? = some .begun)
    {queue : List Nat} (hq : queue = s.queue ∨ queue = s.queue ++ [k]) :
    Alone { s with phases := s.phases.set k .sent, queue } ∧
      Answered answer { s with phases := s.phases.set k .sent, queue } := by
  have hnone := hI.begun k hk
  have hself : (s.phases.set k .sent)[k]? = some .sent := (getElem?_set_iff hk).2 (.inl ⟨rfl, rfl⟩)
  refine ⟨⟨?_, ?_, ?_, ?_, hI.handed⟩, ?_⟩
  · intro j hj
    rw [hI.onWay_set (.inl hk) hj, List.length_set]
    exact hI.last k (.inl hk)
  · intro j hj
    rw [hI.onWay_set (.inl hk) (.inl hj), hself] at hj
    cases hj
  · intro j hj
    rw [(hI.last k (.inl hk)).1] at hj
    cases hj
  · rcases hq with rfl | rfl
    · exact .inl hnone
    · refine .inr ⟨k, ?_, .inr hself⟩
      simp only [State.unanswered] at hnone ⊢
      rw [← List.append_assoc, hnone, List.nil_append]
  · exact hP.mono rfl (fun _ _ => rfl) fun j p hj hp => settled_set hk ⟨nofun, nofun⟩ j p hj hp

theorem alone_write (hI : Alone s) (hP : Answered answer s) {k : Nat} {rest : List Nat} (hq : s.queue = k :: rest) :
    Alone { s with queue := rest, requests := s.requests ++ [k] } ∧
      Answered answer { s with queue := rest, requests := s.requests ++ [k] } := by
  have hsame : State.unanswered { s with queue := rest, requests := s.requests ++ [k] } = s.unanswered := by
    simp only [State.unanswered, hq]
    rw [List.drop_append_of_le_length hI.handed, List.append_assoc, List.singleton_append]
  refine ⟨⟨hI.last, ?_, hI.holder, ?_, ?_⟩, ?_⟩
  · rw [hsame]
    exact hI.begun
  · rw [hsame]
    exact hI.unanswered
  · have := hI.handed
    simp only [List.length_append, List.length_singleton]
    omega
  · refine hP.mono rfl (fun n hn => ?_) fun _ _ hj _ => hj
    exact List.getElem?_append_left (Nat.lt_of_lt_of_le hn hI.handed)

theorem alone_register (hI : Alone s) (hP : Answered answer s) {k : Nat} (hk : s.phases[k]? = some .sent) :
    Alone { s with holder := some k, phases := s.phases.set k .waiting } ∧
      Answered answer { s with holder := some k, phases := s.phases.set k .waiting } := by
  have hself : (s.phases.set k .waiting)[k]? = some .waiting := (getElem?_set_iff hk).2 (.inl ⟨rfl, rfl⟩)
  have hway := hI.none_onWay (.inr hk) (q := .waiting) ⟨nofun, nofun⟩
  refine ⟨⟨fun j hj => absurd hj (hway j), fun j hj => absurd (.inl hj) (hway j), ?_, ?_, hI.handed⟩, ?_⟩
  · intro j hj
    cases hj
    exact .inl hself
  · rcases hI.unanswered with h | ⟨j, h, hj | hj⟩
    · exact .inl h
    · rw [(hI.last k (.inr hk)).1] at hj
      cases hj
    · have hjk : j = k := by
        have h1 := (hI.last j (.inr hj)).2
        have h2 := (hI.last k (.inr hk)).2
        omega
      exact .inr ⟨k, hjk ▸ h, .inl rfl⟩
  · exact hP.mono rfl (fun _ _ => rfl) fun j p hj hp => settled_set hk ⟨nofun, nofun⟩ j p hj hp

/-- A call in the slot moves on; the slot is as it was, or is empty now and so are the requests. -/
theorem Alone.settle (hI : Alone s) {k : Nat} (hk : s.phases[k]? = some .waiting) (q : Phase τ)
    (hq : q ≠ .begun ∧ q ≠ .sent) {holder : Option Nat} {handed : Nat} (hh : handed ≤ s.requests.length)
    (hcase : (holder = s.holder ∧ handed = s.handed ∧ q = .over) ∨
      (holder = none ∧ s.requests.drop handed ++ s.queue = [])) :
    Alone { s with holder, handed, phases := s.phases.set k q } := by
  have hold : ∀ {j : Nat} {p : Phase τ}, p = .begun ∨ p = .sent → (s.phases.set k q)[j]? = some p →
      s.phases[j]? = some p := by
    intro j p hp hj
    rcases (getElem?_set_iff hk).1 hj with ⟨-, rfl⟩ | ⟨-, hj⟩
    · exact (hp.elim hq.1 hq.2).elim
    · exact hj
  constructor
  · rintro j hj
    obtain ⟨hnone, hlast⟩ := hI.last j (hj.imp (hold (.inl rfl)) (hold (.inr rfl)))
    refine ⟨?_, by rwa [List.length_set]⟩
    rcases hcase with ⟨rfl, -⟩ | ⟨rfl, -⟩
    · exact hnone
    · rfl
  · intro j hj
    rcases hcase with ⟨-, rfl, -⟩ | ⟨-, h⟩
    · exact hI.begun j (hold (.inl rfl) hj)
    · exact h
  · rintro j hj
    rcases hcase with ⟨rfl, -, rfl⟩ | ⟨rfl, -⟩
    · by_cases hjk : j = k
      · exact .inr ((getElem?_set_iff hk).2 (.inl ⟨hjk, rfl⟩))
      · exact (hI.holder j hj).imp (fun h => (getElem?_set_iff hk).2 (.inr ⟨hjk, h⟩))
          (fun h => (getElem?_set_iff hk).2 (.inr ⟨hjk, h⟩))
    · cases hj
  · rcases hcase with ⟨rfl, rfl, -⟩ | ⟨-, h⟩
    · refine hI.unanswered.imp id ?_
      rintro ⟨j, hj, h⟩
      refine ⟨j, hj, h.imp id fun h => (getElem?_set_iff hk).2 (.inr ⟨?_, h⟩)⟩
      rintro rfl
      rw [hk] at h
      cases h
    · exact .inl h
  · exact hh

theorem alone_fail (hI : Alone s) (hP : Answered answer s) {k : Nat} (hk : s.phases[k]? = some .begun) :
    Alone { s with phases := s.phases.set k .failed } ∧ Answered answer { s with phases := s.phases.set k .failed } := by
  have hway := hI.none_onWay (.inl hk) (q := .failed) ⟨nofun, nofun⟩
  refine ⟨⟨fun j hj => absurd hj (hway j), fun j hj => absurd (.inl hj) (hway j), ?_, .inl (hI.begun k hk),
    hI.handed⟩, ?_⟩
  · intro j hj
    rw [(hI.last k (.inl hk)).1] at hj
    cases hj
  · exact hP.mono rfl (fun _ _ => rfl) fun j p hj hp => settled_set hk ⟨nofun, nofun⟩ j p hj hp

/-- The response is to the one open request, whose call is in the slot or on its way. -/
theorem Alone.next (hI : Alone s) {k : Nat} (hk : s.requests[s.handed]? = some k) :
    s.handed < s.requests.length ∧ s.requests.drop (s.handed + 1) ++ s.queue = [] ∧
      (s.holder = some k ∨ s.phases[k]? = some .sent) := by
  obtain ⟨hlt, hget⟩ := List.getElem?_eq_some_iff.1 hk
  refine ⟨hlt, ?_⟩
  have hun := hI.unanswered
  rw [State.unanswered, List.drop_eq_getElem_cons hlt, hget, List.cons_append] at hun
  rcases hun with h | ⟨j, h, hj⟩
  · cases h
  · obtain ⟨rfl, hnil⟩ := List.cons.inj h
    exact ⟨hnil, hj⟩

/-- The response reaches the call it is for. -/
theorem Alone.holder_eq (hI : Alone s) {j k : Nat} (hk : s.requests[s.handed]? = some k) (hh : s.holder = some j) :
    j = k := by
  rcases (hI.next hk).2.2 with h | h
  · rw [hh] at h
    exact Option.some.inj h
  · rw [(hI.last k (.inr h)).1] at hh
    cases hh

/-- One more response, to a call that is settled by it or was before. -/
theorem Answered.next (hP : Answered answer s) {k : Nat} (hk : s.requests[s.handed]? = some k)
    (hu : u.handed = s.handed + 1 ∧ u.requests = s.requests)
    (hp : ∀ (j : Nat) (p : Phase τ), s.phases[j]? = some p → p = .answered (answer j) ∨ p = .over →
      u.phases[j]? = some p)
    (hself : u.phases[k]? = some (.answered (answer k)) ∨ u.phases[k]? = some .over) : Answered answer u := by
  intro n i hn hi
  rw [hu.2] at hi
  rcases Nat.lt_succ_iff_lt_or_eq.1 (hu.1 ▸ hn) with hn | rfl
  · exact (hP n i hn hi).imp (fun h => hp i _ h (.inl rfl)) (fun h => hp i _ h (.inr rfl))
  · rw [hk] at hi
    cases hi
    exact hself

/-- **A step keeps every response with its call, exactly if the slot is not empty when one comes.** -/
theorem alone_step (hI : Alone s) (hP : Answered answer s) (hok : OneByOne answer s a) (h : Step s a u) :
    Alone u ∧ (Answered answer u ↔ Registered s a) := by
  have htrue : Registered s a → Alone u ∧ Answered answer u → Alone u ∧ (Answered answer u ↔ Registered s a) :=
    fun ha hu => ⟨hu.1, iff_of_true hu.2 ha⟩
  cases h with
  | call => exact htrue trivial (alone_call hI hP hok)
  | refuse hk => exact htrue trivial (alone_sent hI hP hk (.inl rfl))
  | fail hk => exact htrue trivial (alone_fail hI hP hk)
  | submit hk => exact htrue trivial (alone_sent hI hP hk (.inr rfl))
  | write hq => exact htrue trivial (alone_write hI hP hq)
  | register hk => exact htrue trivial (alone_register hI hP hk)
  | missed hh =>
    obtain ⟨k, hk, -⟩ := Option.map_eq_some_iff.1 hok
    obtain ⟨hlt, hrest, hplace⟩ := hI.next hk
    refine ⟨⟨hI.last, fun _ _ => hrest, hI.holder, .inl hrest, hlt⟩, iff_of_false (fun hans => ?_) (fun h => h hh)⟩
    -- the call will not get it
    have hsent : s.phases[k]? = some .sent := hplace.resolve_left (by rw [hh]; nofun)
    have := hans s.handed k (Nat.lt_succ_self _) hk
    rw [hsent] at this
    rcases this with h | h <;> cases h
  | @reached m j hh hw =>
    obtain ⟨k, hk, rfl⟩ := Option.map_eq_some_iff.1 hok
    obtain ⟨hlt, hrest, -⟩ := hI.next hk
    obtain rfl := hI.holder_eq hk hh
    refine htrue (by rw [Registered, hh]; nofun)
      ⟨hI.settle hw (.answered (answer j)) ⟨nofun, nofun⟩ hlt (.inr ⟨rfl, hrest⟩), ?_⟩
    exact hP.next hk ⟨rfl, rfl⟩ (fun i p hi hp => settled_set hw ⟨nofun, nofun⟩ i p hi hp)
      (.inl ((getElem?_set_iff hw).2 (.inl ⟨rfl, rfl⟩)))
  | @late m j hh hw =>
    obtain ⟨k, hk, rfl⟩ := Option.map_eq_some_iff.1 hok
    obtain ⟨hlt, hrest, -⟩ := hI.next hk
    obtain rfl := hI.holder_eq hk hh
    refine htrue (by rw [Registered, hh]; nofun)
      ⟨⟨fun i hi => ⟨rfl, (hI.last i hi).2⟩, fun _ _ => hrest, nofun, .inl hrest, hlt⟩, ?_⟩
    exact hP.next hk ⟨rfl, rfl⟩ (fun i p hi _ => hi) (.inr hw)
  | expire hk =>
    refine htrue trivial ⟨hI.settle hk .over ⟨nofun, nofun⟩ hI.handed (.inl ⟨rfl, rfl, rfl⟩), ?_⟩
    exact hP.mono rfl (fun _ _ => rfl) fun j p hj hp => settled_set hk ⟨nofun, nofun⟩ j p hj hp

end Lib.Slot
