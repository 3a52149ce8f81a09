import KnotLink.Java.Querier
/-!
# The futures that `queryL` returns

`queryL` puts its future over whatever is in `pendingFuture`, and puts it there after `close` as well. A future that
is displaced so, or left so, is never done (OpenSocketQuerier.java:82): in Rust the sender that is displaced is
dropped, which fails its call. A future is kept while somebody will still make it done: it is in `pendingFuture`, or
the reader thread or `close` has just taken it out. All of them are kept, and none is in `pendingFuture` after
`close`, exactly while every future is put into an empty slot, or over a future that is done, before `close`
(`kept_throughout_iff`).
-/
namespace KnotLink.Java
open Lib

theorem Future.complete_ne_pending {τ : Type} (f : Future τ) (data : τ) : f.complete data ≠ .pending := by
  cases f <;> simp [Future.complete]

theorem Future.cancel_ne_pending {τ : Type} (f : Future τ) : f.cancel ≠ .pending := by
  cases f <;> simp [Future.cancel]

/-- The querier with what `close` leaves behind and what `queryAsync` writes. -/
structure Waiters (τ : Type) where
  querier : OpenSocketQuerier τ
  /-- `close` has emptied the slot. -/
  closed : Bool
  /-- The packets that `queryAsync` has written. -/
  async : List (List Char)
  deriving DecidableEq, Repr

inductive WaitersAct (τ : Type) where
  | querier (a : QuerierAct τ)
  | queryAsync (question : List Char) (io : Bool)
  /-- The caller of `queryL` cancels the future it has got. -/
  | callerCancels (k : Nat)
  deriving DecidableEq, Repr

namespace Waiters
variable {τ : Type}

def start : Waiters τ := ⟨.start, false, []⟩

def step (cfg : QuerierConfig) (s : Waiters τ) : WaitersAct τ → Option (Waiters τ)
  | .querier a =>
    (OpenSocketQuerier.step cfg s.querier a).map fun q => match a with
      | .close => { s with querier := q, closed := true }
      | _ => { s with querier := q }
  | .queryAsync question io =>
    let packet := OpenSocketQuerier.buildPacket cfg question
    some (if OpenSocketQuerier.written packet io then { s with async := s.async ++ [packet] } else s)
  | .callerCancels k =>
    match s.querier.calls[k]? with
    | some (.returned future) => some { s with
        querier := { s.querier with calls := s.querier.calls.set k (.returned future.cancel) } }
    | _ => none

def system (cfg : QuerierConfig) : System (Waiters τ) (WaitersAct τ) := ⟨step cfg⟩

/-- The futures that the reader thread or `close` has taken out and makes done next. -/
def inHand (s : OpenSocketQuerier τ) : List Nat := (s.reader.map Prod.fst).toList ++ s.closing

/-- Every future that was returned and is not done is in the slot or in hand. -/
def Waited (s : OpenSocketQuerier τ) : Prop :=
  ∀ k : Nat, s.calls[k]? = some (.returned .pending) → s.pendingFuture = some k ∨ k ∈ inHand s

/-- All futures are kept, and `close` leaves none in the slot. -/
def Kept (s : Waiters τ) : Prop := Waited s.querier ∧ (s.closed = true → s.querier.pendingFuture = none)

/-- With nothing in hand, what is not done is what `pendingFuture` holds; after `close` all are done. -/
theorem Kept.done {s : Waiters τ} (h : Kept s) (hhand : inHand s.querier = []) {k : Nat}
    (hk : s.querier.calls[k]? = some (.returned .pending)) : s.querier.pendingFuture = some k ∧ s.closed = false := by
  rcases h.1 k hk with hslot | hmem
  · refine ⟨hslot, ?_⟩
    by_contra hc
    have := h.2 (Bool.not_eq_false _ ▸ hc)
    simp [hslot] at this
  · simp [hhand] at hmem

/-- A future is put in before `close`, and over none that is waited for. -/
def Free (s : Waiters τ) : WaitersAct τ → Prop
  | .querier (.set _) => s.closed = false ∧
    ∀ j ∈ s.querier.pendingFuture, s.querier.calls[j]? ≠ some (.returned .pending)
  | _ => True

instance [DecidableEq τ] (s : Waiters τ) (a : WaitersAct τ) : Decidable (Free s a) := by
  unfold Free
  split <;> infer_instance

/-! ## One step -/

/-- What is in the slot or in hand was returned, and nothing is in both. -/
structure Held (s : OpenSocketQuerier τ) : Prop where
  returned : ∀ k : Nat, s.pendingFuture = some k ∨ k ∈ inHand s → ∃ future, s.calls[k]? = some (.returned future)
  once : ∀ k : Nat, s.pendingFuture = some k → k ∉ inHand s

variable {cfg : QuerierConfig} {s u : OpenSocketQuerier τ} {k : Nat}

/-- A call that was not in the slot or in hand moves. -/
theorem Held.move (hI : Held s) {p q : QueryPc τ} (hk : s.calls[k]? = some p) (hp : p.isReturned = false)
    {requests : List Nat} : Held { s with calls := s.calls.set k q, requests } := by
  refine ⟨fun j hj => ?_, hI.once⟩
  obtain ⟨future, hf⟩ := hI.returned j hj
  refine ⟨future, (getElem?_set_iff hk).2 (.inr ⟨?_, hf⟩)⟩
  rintro rfl
  rw [hk] at hf
  cases hf
  cases hp

/-- A future changes; what is in hand goes on or is put down. -/
theorem Held.finish (hI : Held s) {f g : Future τ} (hk : s.calls[k]? = some (.returned f)) {reader : Option (Nat × τ)}
    {closing : List Nat} (hhand : (reader.map Prod.fst).toList ++ closing ⊆ inHand s) :
    Held { s with reader, closing, calls := s.calls.set k (.returned g) } := by
  refine ⟨fun j hj => ?_, fun j hj hmem => hI.once j hj (hhand hmem)⟩
  by_cases hjk : j = k
  · exact ⟨g, (getElem?_set_iff hk).2 (.inl ⟨hjk, rfl⟩)⟩
  · obtain ⟨future, hf⟩ := hI.returned j (hj.imp_right fun hmem => hhand hmem)
    exact ⟨future, (getElem?_set_iff hk).2 (.inr ⟨hjk, hf⟩)⟩

theorem held_step {a : QuerierAct τ} (hI : Held s) (h : OpenSocketQuerier.Step cfg s a u) : Held u := by
  cases h with
  | call question =>
    refine ⟨fun j hj => ?_, hI.once⟩
    obtain ⟨future, hf⟩ := hI.returned j hj
    exact ⟨future, getElem?_concat_iff.2 (.inr hf)⟩
  | sent hk hw => exact hI.move hk rfl
  | unsent hk hw => exact hI.move hk rfl
  | @set k hk =>
    -- the call was not returned, so it is nowhere in hand
    have hno : k ∉ inHand s := by
      intro hmem
      obtain ⟨future, hf⟩ := hI.returned k (.inr hmem)
      rw [hk] at hf
      cases hf
    refine ⟨fun j hj => ?_, fun j hj => ?_⟩
    · by_cases hjk : j = k
      · exact ⟨.pending, (getElem?_set_iff hk).2 (.inl ⟨hjk, rfl⟩)⟩
      · have hmem : j ∈ inHand s := hj.resolve_left fun h => hjk (Option.some.inj h).symm
        obtain ⟨future, hf⟩ := hI.returned j (.inr hmem)
        exact ⟨future, (getElem?_set_iff hk).2 (.inr ⟨hjk, hf⟩)⟩
    · cases hj
      exact hno
  | ignored => exact ⟨hI.returned, hI.once⟩
  | @took k data hr hp =>
    refine ⟨fun j hj => ?_, by simp⟩
    simp only [inHand, reduceCtorEq, false_or, Option.map_some, Option.toList_some, List.singleton_append,
      List.mem_cons] at hj
    rcases hj with rfl | hj
    · exact hI.returned j (.inl hp)
    · exact hI.returned j (.inr (by simp [inHand, hj]))
  | complete hr hk => exact hI.finish hk (by simp [inHand])
  | close =>
    refine ⟨fun j hj => ?_, by simp⟩
    simp only [inHand, reduceCtorEq, false_or, List.mem_append, Option.mem_toList] at hj
    rcases hj with hj | hj | hj
    · exact hI.returned j (.inr (by simp [inHand, hj]))
    · exact hI.returned j (.inr (by simp [inHand, hj]))
    · exact hI.returned j (.inl hj)
  | cancel hc hk => exact hI.finish hk (by simp [inHand, hc])

/-- A call moves to where its future is not waited for; only its own future is put down. -/
theorem Waited.move (hW : Waited s) {p q : QueryPc τ} (hk : s.calls[k]? = some p) (hq : q ≠ .returned .pending)
    {reader : Option (Nat × τ)} {closing requests : List Nat}
    (hhand : ∀ j ∈ inHand s, j = k ∨ j ∈ (reader.map Prod.fst).toList ++ closing) :
    Waited { s with reader, closing, requests, calls := s.calls.set k q } := by
  intro j hj
  rcases (getElem?_set_iff hk).1 hj with ⟨-, rfl⟩ | ⟨hjk, hj⟩
  · exact absurd rfl hq
  · exact (hW j hj).imp_right fun hmem => (hhand j hmem).resolve_left hjk

theorem waited_step {a : QuerierAct τ} (hW : Waited s) (h : OpenSocketQuerier.Step cfg s a u)
    (ha : ∀ k, a ≠ .set k) : Waited u := by
  cases h with
  | call question =>
    intro j hj
    rcases getElem?_concat_iff.1 hj with ⟨-, hnew⟩ | hj
    · cases hnew
    · exact hW j hj
  | sent hk hw => exact hW.move hk (by simp) (fun j hj => .inr hj)
  | unsent hk hw => exact hW.move hk (by simp) (fun j hj => .inr hj)
  | set hk => exact absurd rfl (ha _)
  | ignored => exact hW
  | @took k data hr hp =>
    intro j hj
    rcases hW j hj with hslot | hmem
    · rw [hp] at hslot
      exact .inr (by simp [inHand, Option.some.inj hslot])
    · exact .inr (by simp_all [inHand])
  | @complete k data future hr hk =>
    refine hW.move hk (by simpa using future.complete_ne_pending data) (fun j hj => ?_)
    simpa [inHand, hr] using hj
  | close =>
    intro j hj
    refine .inr ?_
    rcases hW j hj with hslot | hmem
    · simp [inHand, hslot]
    · simp only [inHand, List.mem_append] at hmem ⊢
      exact hmem.imp_right .inl
  | @cancel k rest future hc hk =>
    refine hW.move hk (by simpa using future.cancel_ne_pending) (fun j hj => ?_)
    simp only [inHand, hc, List.mem_append, List.mem_cons] at hj ⊢
    tauto

/-- Only `set` puts a future into the slot, and `close` empties it. -/
theorem slot_step {a : QuerierAct τ} (h : OpenSocketQuerier.Step cfg s a u) (ha : ∀ k, a ≠ .set k)
    (hp : s.pendingFuture = none ∨ a = .close) : u.pendingFuture = none := by
  cases h with
  | set hk => exact absurd rfl (ha _)
  | took _ hslot => rfl
  | close => rfl
  | call | sent | unsent | ignored | complete | cancel => exact hp.resolve_right (by simp)

/-- What `set` displaces has to be done. -/
theorem waited_set (hI : Held s) (hW : Waited s) (hk : s.calls[k]? = some .sent) :
    Waited { s with pendingFuture := some k, calls := s.calls.set k (.returned .pending) } ↔
      ∀ j ∈ s.pendingFuture, s.calls[j]? ≠ some (.returned .pending) := by
  constructor
  · intro hu j hslot hj
    have hjk : j ≠ k := by
      rintro rfl
      rw [hk] at hj
      cases hj
    rcases hu j ((getElem?_set_iff hk).2 (.inr ⟨hjk, hj⟩)) with h | hmem
    · exact hjk (Option.some.inj h).symm
    · exact hI.once j hslot hmem
  · intro hfree j hj
    rcases (getElem?_set_iff hk).1 hj with ⟨rfl, -⟩ | ⟨-, hj⟩
    · exact .inl rfl
    · rcases hW j hj with hslot | hmem
      · exact absurd hj (hfree j hslot)
      · exact .inr hmem

theorem kept_step {s u : Waiters τ} {a : WaitersAct τ} (hI : Held s.querier) (hP : Kept s)
    (h : step cfg s a = some u) : Held u.querier ∧ (Kept u ↔ Free s a) := by
  cases a with
  | querier a =>
    obtain ⟨q, hq, hu⟩ := Option.map_eq_some_iff.1 h
    have hstep := OpenSocketQuerier.step_cases hq
    by_cases ha : ∃ k, a = .set k
    · obtain ⟨k, rfl⟩ := ha
      subst hu
      refine ⟨held_step hI hstep, ?_⟩
      cases hstep with
      | set hk =>
        simp only [Kept, Free, waited_set hI hP.1 hk]
        simp [and_comm]
    · have hne : ∀ k, a ≠ .set k := fun k hk => ha ⟨k, hk⟩
      have hfree : Free s (.querier a) := by
        cases a <;> simp_all [Free]
      have huq : u.querier = q := by
        subst hu
        cases a <;> rfl
      refine ⟨huq ▸ held_step hI hstep, iff_of_true ⟨huq ▸ waited_step hP.1 hstep hne, fun hc => ?_⟩ hfree⟩
      rw [huq]
      apply slot_step hstep hne
      by_cases hclose : a = .close
      · exact .inr hclose
      · refine .inl (hP.2 ?_)
        subst hu
        cases a <;> simp_all
  | queryAsync question io =>
    simp only [step, Option.some.injEq] at h
    subst h
    split <;> exact ⟨hI, iff_of_true hP trivial⟩
  | callerCancels k =>
    simp only [step] at h
    split at h
    · rename_i future hk
      cases h
      refine ⟨hI.finish hk (List.Subset.refl _), iff_of_true ⟨?_, hP.2⟩ trivial⟩
      exact hP.1.move hk (by simpa using future.cancel_ne_pending) (fun j hj => .inr hj)
    · cases h

/-- **Every future is done, or in `pendingFuture`, or about to be done, and none waits after `close`**, throughout a
run exactly if each future is put in before `close` and over none that is still waited for. -/
theorem kept_throughout_iff {as : List (WaitersAct τ)} {t : Waiters τ}
    (h : (system cfg).Runs (fun _ _ => True) start as t) :
    (system cfg).Throughout Kept start as ↔ (system cfg).Runs Free start as t := by
  refine h.throughout_iff_runs (I := fun s => Held s.querier) (fun hI hP hstep => kept_step hI hP hstep) ⟨?_, ?_⟩ ?_
  · rintro k (hk | hk) <;> simp [start, OpenSocketQuerier.start, inHand] at hk
  · rintro k hk
    simp [start, OpenSocketQuerier.start] at hk
  · exact ⟨by simp [Waited, start, OpenSocketQuerier.start], by simp [start]⟩

/-- Two queries, the second one behind the answer to the first, and a `close`. -/
def answeredFirst : List (WaitersAct Unit) :=
  [.querier (.call []), .querier (.send 0 true), .querier (.set 0), .querier (.receive ()), .queryAsync [] true,
    .querier .complete, .querier (.call []), .querier (.send 1 true), .querier (.set 1), .querier .close,
    .querier .cancel]

theorem kept_throughout_iff_answered :
    ∃ t, (system ⟨['a'], ['o']⟩).Runs (fun _ _ => True) (start : Waiters Unit) answeredFirst t ∧
      (system ⟨['a'], ['o']⟩).Throughout Kept start answeredFirst := by
  obtain ⟨t, hfree, -⟩ := (system ⟨['a'], ['o']⟩).exists_run Free (start : Waiters Unit) answeredFirst
    (fun t => t.closed = true) (by decide +kernel)
  have hrun := hfree.mono fun _ _ _ => trivial
  exact ⟨t, hrun, (kept_throughout_iff hrun).2 hfree⟩

/-- Two queries that overlap, then `close`. -/
def overlapping : List (WaitersAct Unit) :=
  [.querier (.call []), .querier (.send 0 true), .querier (.set 0), .querier (.call []), .querier (.send 1 true),
    .querier (.set 1), .querier .close, .querier .cancel]

/-- The first future is never done: everything is closed, and nobody has it any more. -/
theorem displaced_future_pending : ∃ (as : List (WaitersAct Unit)) (t : Waiters Unit),
    (system ⟨['a'], ['o']⟩).Runs (fun _ _ => True) start as t ∧ t.closed = true ∧ inHand t.querier = [] ∧
    t.querier.pendingFuture = none ∧ t.querier.calls[0]? = some (.returned .pending) := by
  obtain ⟨t, hrun, ht⟩ := (system ⟨['a'], ['o']⟩).exists_run (fun _ _ => True) (start : Waiters Unit) overlapping
    (fun t => t.closed = true ∧ inHand t.querier = [] ∧ t.querier.pendingFuture = none ∧
      t.querier.calls[0]? = some (.returned .pending)) (by decide +kernel)
  exact ⟨overlapping, t, hrun, ht⟩

end Waiters
end KnotLink.Java
