import KnotLink.Java.Querier
/-!
# Whose future a response completes

Seen through `view` the querier is the slot of `Lib.Slot`: a future that the reader thread has taken out of
`pendingFuture` counts as answered. So a response completes the future of its own call exactly if that future
is in `pendingFuture` when the response comes (`keep_step`).
-/
namespace KnotLink.Java.OpenSocketQuerier
open Lib

variable {τ : Type} {cfg : QuerierConfig} {answer : Nat → τ} {s u : OpenSocketQuerier τ} {a : QuerierAct τ}

/-- One thread calls `queryL` with an empty slot, nobody closes, and what arrives is the answer to the next
request written. -/
def OneByOne (answer : Nat → τ) (s : OpenSocketQuerier τ) : QuerierAct τ → Prop
  | .call _ => s.pendingFuture = none ∧ ∀ p ∈ s.calls, p.isReturned
  | .receive data => s.requests[s.handed.length]?.map answer = some data
  | .close | .cancel => False
  | _ => True

/-- A response is handed over when a future is in the slot. -/
def Registered (s : OpenSocketQuerier τ) : QuerierAct τ → Prop
  | .receive _ => s.pendingFuture ≠ none
  | _ => True

instance [DecidableEq τ] (answer : Nat → τ) (s : OpenSocketQuerier τ) :
    (a : QuerierAct τ) → Decidable (OneByOne answer s a)
  | .call _ => inferInstanceAs (Decidable (s.pendingFuture = none ∧ ∀ p ∈ s.calls, p.isReturned))
  | .receive data => inferInstanceAs (Decidable (s.requests[s.handed.length]?.map answer = some data))
  | .close | .cancel => inferInstanceAs (Decidable False)
  | .send _ _ | .set _ | .complete => inferInstanceAs (Decidable True)

instance (s : OpenSocketQuerier τ) : (a : QuerierAct τ) → Decidable (Registered s a)
  | .receive _ => inferInstanceAs (Decidable (s.pendingFuture ≠ none))
  | .call _ | .send _ _ | .set _ | .complete | .close | .cancel => inferInstanceAs (Decidable True)

/-- Every response handed over has completed the future of its own call, or the reader thread is about to
complete it. -/
def Completed (answer : Nat → τ) (s : OpenSocketQuerier τ) : Prop :=
  ∀ n k, n < s.handed.length → s.requests[n]? = some k →
    s.calls[k]? = some (.returned (.completed (answer k))) ∨ s.reader = some (k, answer k)

/-! ## The querier as a slot -/

/-- Where a call stands for the slot. -/
def phase (reader : Option (Nat × τ)) (k : Nat) : QueryPc τ → Slot.Phase τ
  | .begun _ => .begun
  | .sent => .sent
  | .returned .pending =>
    match reader with
    | some (j, data) => if j = k then .answered data else .waiting
    | none => .waiting
  | .returned (.completed data) => .answered data
  | .returned .cancelled => .failed

def view (s : OpenSocketQuerier τ) : Slot.State τ :=
  ⟨s.pendingFuture, s.calls.mapIdx (phase s.reader), [], s.requests, s.handed.length⟩

theorem view_phases (s : OpenSocketQuerier τ) (k : Nat) :
    s.view.phases[k]? = s.calls[k]?.map (phase s.reader k) := List.getElem?_mapIdx

/-- What the reader thread has in hand is not done. -/
def InHand (s : OpenSocketQuerier τ) : Prop :=
  ∀ k data, s.reader = some (k, data) → s.calls[k]? = some (.returned .pending)

theorem phase_eq_answered {reader : Option (Nat × τ)} {k : Nat} {p : QueryPc τ} {m : τ} :
    phase reader k p = .answered m ↔
      p = .returned (.completed m) ∨ p = .returned .pending ∧ reader = some (k, m) := by
  rcases p with question | _ | (_ | data | _)
  · simp [phase]
  · simp [phase]
  · rcases reader with _ | ⟨j, data⟩
    · simp [phase]
    · by_cases hj : j = k <;> simp [phase, hj]
  · simp [phase]
  · simp [phase]

theorem phase_eq_waiting {k : Nat} {p : QueryPc τ} : phase none k p = .waiting ↔ p = .returned .pending := by
  rcases p with question | _ | (_ | data | _) <;> simp [phase]

theorem phase_ne_over (reader : Option (Nat × τ)) (k : Nat) (p : QueryPc τ) : phase reader k p ≠ .over := by
  rcases p with question | _ | (_ | data | _)
  case returned.pending =>
    rcases reader with _ | ⟨j, data⟩
    · simp [phase]
    · by_cases hj : j = k <;> simp [phase, hj]
  all_goals simp [phase]

theorem answered_iff (hI : InHand s) : Slot.Answered answer s.view ↔ Completed answer s := by
  refine forall_congr' fun n => forall_congr' fun k => forall_congr' fun _ => forall_congr' fun _ => ?_
  rw [view_phases]
  constructor
  · rintro (h | h)
    · obtain ⟨p, hk, hp⟩ := Option.map_eq_some_iff.1 h
      rcases phase_eq_answered.1 hp with rfl | ⟨-, hr⟩
      · exact .inl hk
      · exact .inr hr
    · obtain ⟨p, -, hp⟩ := Option.map_eq_some_iff.1 h
      exact absurd hp (phase_ne_over _ _ _)
  · rintro (h | h)
    · rw [h]
      exact .inl rfl
    · rw [hI k _ h, Option.map_some, phase_eq_answered.2 (.inr ⟨rfl, h⟩)]
      exact .inl rfl

/-- A call that has returned is past its registration. -/
theorem phase_isReturned {p : QueryPc τ} (h : p.isReturned = true) (reader : Option (Nat × τ)) (k : Nat) :
    phase reader k p ≠ .begun ∧ phase reader k p ≠ .sent := by
  rcases p with question | _ | (_ | data | _)
  case returned.pending =>
    rcases reader with _ | ⟨j, data⟩
    · simp [phase]
    · by_cases hj : j = k <;> simp [phase, hj]
  all_goals simp_all [phase, QueryPc.isReturned]

/-- What the reader thread has in hand tells on its own call only. -/
theorem phase_of_ne {j k : Nat} (h : j ≠ k) (data : τ) (p : QueryPc τ) : phase (some (j, data)) k p = phase none k p := by
  rcases p with question | _ | (_ | data' | _) <;> simp [phase, h]

/-- The call that moves is the only one whose phase changes. -/
theorem mapIdx_set_phase (calls : List (QueryPc τ)) (reader : Option (Nat × τ)) (k : Nat) (p : QueryPc τ) :
    (calls.set k p).mapIdx (phase reader) = (calls.mapIdx (phase reader)).set k (phase reader k p) :=
  List.mapIdx_set

/-- The reader thread takes a future and has the response in hand. -/
theorem mapIdx_phase_some {calls : List (QueryPc τ)} {k : Nat} (hk : calls[k]? = some (.returned .pending)) (data : τ) :
    calls.mapIdx (phase (some (k, data))) = (calls.mapIdx (phase none)).set k (.answered data) := by
  refine List.ext_getElem? fun j => ?_
  rw [List.getElem?_mapIdx, List.getElem?_set]
  by_cases hj : k = j
  · subst hj
    have hlt : k < (calls.mapIdx (phase none)).length := by
      rw [List.length_mapIdx]
      exact (List.getElem?_eq_some_iff.1 hk).1
    rw [if_pos rfl, if_pos hlt, hk]
    simp [phase]
  · rw [if_neg hj, List.getElem?_mapIdx, funext (phase_of_ne hj data)]

/-- It completes the future it has in hand. -/
theorem mapIdx_phase_completed {calls : List (QueryPc τ)} {k : Nat} (hk : calls[k]? = some (.returned .pending))
    (data : τ) :
    (calls.set k (.returned (.completed data))).mapIdx (phase none) = calls.mapIdx (phase (some (k, data))) := by
  rw [mapIdx_set_phase, mapIdx_phase_some hk]
  rfl

/-! ## One step -/

/-- A step that leaves the reader thread alone. -/
theorem InHand.set (hI : InHand s) {k : Nat} {p : QueryPc τ} (hk : s.calls[k]? = some p) (hp : p ≠ .returned .pending)
    {q : QueryPc τ} (hr : u.reader = s.reader) (hu : u.calls = s.calls.set k q) : InHand u := by
  intro j data hj
  rw [hr] at hj
  rw [hu, getElem?_set_iff hk]
  refine .inr ⟨?_, hI j data hj⟩
  rintro rfl
  rw [hI j data hj] at hk
  exact hp (Option.some.inj hk).symm

/-- What the slot does at one step of the querier. -/
theorem step_slot (hI : InHand s) (hA : Slot.Alone s.view) (hok : OneByOne answer s a) (h : Step cfg s a u) :
    InHand u ∧ (u.view = s.view ∧ Registered s a ∨
      (∃ b, Slot.Step s.view b u.view ∧ Slot.OneByOne answer s.view b ∧
        (Slot.Registered s.view b ↔ Registered s a)) ∨
      ∃ k v, Slot.Step s.view (.submit k : Slot.Act τ) v ∧ Slot.Step v (.write : Slot.Act τ) u.view ∧ Registered s a) := by
  cases h with
  | call question =>
    obtain ⟨hslot, hret⟩ := hok
    refine ⟨fun k data hr => ?_, .inr (.inl ⟨.call, ?_, ⟨hslot, fun p hp => ?_⟩, Iff.rfl⟩)⟩
    · exact getElem?_concat_iff.2 (.inr (hI k data hr))
    · have hview : (s.calls ++ [QueryPc.begun question]).mapIdx (phase s.reader) = s.view.phases ++ [.begun] := by
        rw [List.mapIdx_append, List.mapIdx_singleton]
        rfl
      simp only [view] at hview ⊢
      rw [hview]
      exact .call
    · obtain ⟨k, hk⟩ := List.mem_iff_getElem?.1 hp
      rw [view_phases] at hk
      obtain ⟨q, hq, rfl⟩ := Option.map_eq_some_iff.1 hk
      exact phase_isReturned (hret q (List.mem_of_getElem? hq)) s.reader k
  | @sent k question io hk hw =>
    have hbegun : s.view.phases[k]? = some .begun := by rw [view_phases, hk]; rfl
    refine ⟨hI.set hk nofun rfl rfl, .inr (.inr ⟨k, _, .submit hbegun, ?_, trivial⟩)⟩
    simp only [view, mapIdx_set_phase]
    exact .write rfl
  | @unsent k question io hk hw =>
    have hbegun : s.view.phases[k]? = some .begun := by rw [view_phases, hk]; rfl
    refine ⟨hI.set hk nofun rfl rfl, .inr (.inl ⟨.refuse k, ?_, trivial, Iff.rfl⟩)⟩
    simp only [view, mapIdx_set_phase]
    exact .refuse hbegun
  | @set k hk =>
    have hsent : s.view.phases[k]? = some .sent := by rw [view_phases, hk]; rfl
    refine ⟨hI.set hk nofun rfl rfl, .inr (.inl ⟨.register k, ?_, trivial, Iff.rfl⟩)⟩
    have hwait : phase s.reader k (.returned .pending) = .waiting := by
      rcases hr : s.reader with _ | ⟨j, data⟩
      · rfl
      · have hne : j ≠ k := by
          rintro rfl
          rw [hI j data hr] at hk
          cases hk
        simp [phase, hne]
    simp only [view, mapIdx_set_phase, hwait]
    exact .register hsent
  | @ignored data hr hp =>
    refine ⟨fun k data' hk => ?_, .inr (.inl ⟨.respond data, ?_, hok, Iff.rfl⟩)⟩
    · rw [hr] at hk
      cases hk
    · simp only [view, List.length_append, List.length_singleton]
      exact .missed hp
  | @took k data hr hp =>
    have hwait : s.view.phases[k]? = some .waiting := by
      refine (hA.holder k hp).resolve_right fun h => ?_
      rw [view_phases] at h
      obtain ⟨p, -, hover⟩ := Option.map_eq_some_iff.1 h
      exact phase_ne_over _ _ _ hover
    have hcall : s.calls[k]? = some (.returned .pending) := by
      rw [view_phases, hr] at hwait
      obtain ⟨p, hk, hw⟩ := Option.map_eq_some_iff.1 hwait
      rw [hk, phase_eq_waiting.1 hw]
    refine ⟨fun j data' hj => ?_, .inr (.inl ⟨.respond data, ?_, hok, Iff.rfl⟩)⟩
    · cases hj
      exact hcall
    · have hview : s.calls.mapIdx (phase (some (k, data))) = s.view.phases.set k (.answered data) := by
        rw [mapIdx_phase_some hcall, view, hr]
      simp only [view, List.length_append, List.length_singleton] at hview ⊢
      rw [hview]
      exact .reached hp hwait
  | @complete k data future hr hk =>
    have hpending := hI k data hr
    rw [hk] at hpending
    cases hpending
    refine ⟨nofun, .inl ⟨?_, trivial⟩⟩
    have hview : (s.calls.set k (.returned (.completed data))).mapIdx (phase none) = s.calls.mapIdx (phase s.reader) := by
      rw [mapIdx_phase_completed hk, hr]
    simp only [view, Future.complete, hview]
  | close => exact hok.elim
  | cancel => exact hok.elim

theorem keep_step (hI : InHand s ∧ Slot.Alone s.view) (hP : Completed answer s) (hok : OneByOne answer s a)
    (h : step cfg s a = some u) : (InHand u ∧ Slot.Alone u.view) ∧ (Completed answer u ↔ Registered s a) := by
  obtain ⟨hin, hA⟩ := hI
  have hans := (answered_iff hin).2 hP
  obtain ⟨hu, hslot⟩ := step_slot hin hA hok (step_cases h)
  rw [← answered_iff hu]
  rcases hslot with ⟨hsame, hreg⟩ | ⟨b, hb, hbok, hreg⟩ | ⟨k, v, hsub, hwrite, hreg⟩
  · rw [hsame]
    exact ⟨⟨hu, hA⟩, iff_of_true hans hreg⟩
  · obtain ⟨hAu, hiff⟩ := Slot.alone_step hA hans hbok hb
    exact ⟨⟨hu, hAu⟩, hiff.trans hreg⟩
  · obtain ⟨hAv, hv⟩ := Slot.alone_step (a := .submit k) hA hans trivial hsub
    obtain ⟨hAu, hiff⟩ := Slot.alone_step (a := .write) hAv (hv.2 trivial) trivial hwrite
    exact ⟨⟨hu, hAu⟩, iff_of_true (hiff.2 trivial) hreg⟩

end KnotLink.Java.OpenSocketQuerier
