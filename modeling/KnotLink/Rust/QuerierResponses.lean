import KnotLink.Rust.Querier
/-!
# Which call a response reaches

Seen through `view` the querier is the slot of `Lib.Slot`, where a call is answered with what `query_l` makes
of the response. So a response reaches its own call exactly if the call's sender is in `pending_response` when
`on_data` runs (`keep_step`).
-/
namespace KnotLink.Rust.OpenSocketQuerier
open Lib

variable {answer : Nat → Bytes} {s u : OpenSocketQuerier} {a : QuerierAct}

/-- One task calls `query_l` with an empty slot, and what arrives is the answer to the next request written. -/
def OneByOne (answer : Nat → Bytes) (s : OpenSocketQuerier) : QuerierAct → Prop
  | .call .. => s.pendingResponse = none ∧ ∀ p ∈ s.calls, p.isReturned
  | .onData data => s.written[s.handed.length]?.map (fun packet => answer packet.1) = some data
  | _ => True

/-- A response is handed over when a sender is in the slot. -/
def Registered (s : OpenSocketQuerier) : QuerierAct → Prop
  | .onData _ => s.pendingResponse ≠ none
  | _ => True

instance (answer : Nat → Bytes) (s : OpenSocketQuerier) : (a : QuerierAct) → Decidable (OneByOne answer s a)
  | .call .. => inferInstanceAs (Decidable (s.pendingResponse = none ∧ ∀ p ∈ s.calls, p.isReturned))
  | .onData data =>
    inferInstanceAs (Decidable (s.written[s.handed.length]?.map (fun packet => answer packet.1) = some data))
  | .send _ | .register _ | .write | .elapse _ | .resume _ | .stop => inferInstanceAs (Decidable True)

instance (s : OpenSocketQuerier) : (a : QuerierAct) → Decidable (Registered s a)
  | .onData _ => inferInstanceAs (Decidable (s.pendingResponse ≠ none))
  | .call .. | .send _ | .register _ | .write | .elapse _ | .resume _ | .stop => inferInstanceAs (Decidable True)

/-- The call gets the response, has returned it, or had timed out. -/
def QueryPc.Received (r : Bytes) (p : QueryPc) : Prop :=
  (∃ timeout, p = .waiting timeout (.sent r)) ∨ p = .returned (fromUtf8 r) ∨ ∃ d, p = .returned (.error (.timedOut d))

/-- Every response handed over has reached its own call. -/
def Delivered (answer : Nat → Bytes) (s : OpenSocketQuerier) : Prop :=
  ∀ n k full, n < s.handed.length → s.written[n]? = some (k, full) →
    ∃ p, s.calls[k]? = some p ∧ QueryPc.Received (answer k) p

/-! ## The querier as a slot -/

/-- Where a call stands for the slot. -/
def phase : QueryPc → Slot.Phase (Except QueryError (List Char))
  | .begun .. => .begun
  | .sent _ => .sent
  | .waiting _ .open => .waiting
  | .waiting _ (.sent r) => .answered (fromUtf8 r)
  | .waiting _ .closed => .failed
  | .returned (.error (.timedOut _)) => .over
  | .returned (.error .sendFailed) | .returned (.error .responseChannelClosed) => .failed
  | .returned (.error (.fromUtf8 r)) => .answered (.error (.fromUtf8 r))
  | .returned (.ok text) => .answered (.ok text)

def view (s : OpenSocketQuerier) : Slot.State (Except QueryError (List Char)) :=
  ⟨s.pendingResponse, s.calls.map phase, s.tx.map Prod.fst, s.written.map Prod.fst, s.handed.length⟩

theorem view_phases (s : OpenSocketQuerier) (k : Nat) : s.view.phases[k]? = s.calls[k]?.map phase :=
  List.getElem?_map

theorem phase_fromUtf8 (r : Bytes) : phase (.returned (fromUtf8 r)) = .answered (fromUtf8 r) := by
  unfold fromUtf8
  cases Utf8.decodeStrict r <;> rfl

theorem phase_eq_answered {p : QueryPc} {x : Except QueryError (List Char)} :
    phase p = .answered x ↔ (∃ timeout r, p = .waiting timeout (.sent r) ∧ fromUtf8 r = x) ∨
      p = .returned x ∧ ∀ e, x = .error e → ∃ r, e = .fromUtf8 r := by
  rcases p with _ | _ | ⟨timeout, _ | r | _⟩ | ((_ | d | _ | r) | text) <;> simp [phase] <;> grind

theorem phase_eq_waiting {p : QueryPc} : phase p = .waiting ↔ ∃ timeout, p = .waiting timeout .open := by
  rcases p with _ | _ | ⟨timeout, _ | r | _⟩ | ((_ | d | _ | r) | text) <;> simp [phase]

theorem phase_eq_over {p : QueryPc} : phase p = .over ↔ ∃ d, p = .returned (.error (.timedOut d)) := by
  rcases p with _ | _ | ⟨timeout, _ | r | _⟩ | ((_ | d | _ | r) | text) <;> simp [phase]

theorem received_iff {r : Bytes} {p : QueryPc} :
    QueryPc.Received r p ↔ phase p = .answered (fromUtf8 r) ∨ phase p = .over := by
  rw [phase_eq_over, phase_eq_answered, QueryPc.Received, or_assoc]
  refine or_congr ⟨?_, ?_⟩ (or_congr ⟨fun h => ⟨h, ?_⟩, And.left⟩ Iff.rfl)
  · rintro ⟨timeout, rfl⟩
    exact ⟨timeout, r, rfl, rfl⟩
  · rintro ⟨timeout, r', rfl, hr⟩
    exact ⟨timeout, by rw [fromUtf8_inj hr]⟩
  · intro e he
    unfold fromUtf8 at he
    cases hr : Utf8.decodeStrict r <;> rw [hr] at he <;> cases he
    exact ⟨r, rfl⟩

theorem answered_iff : Slot.Answered (fun k => fromUtf8 (answer k)) s.view ↔ Delivered answer s := by
  constructor
  · intro h n k full hn hk
    have hview := h n k hn (by rw [view, List.getElem?_map, hk]; rfl)
    rw [view_phases] at hview
    rcases hview with hview | hview
    · obtain ⟨p, hp, hans⟩ := Option.map_eq_some_iff.1 hview
      exact ⟨p, hp, received_iff.2 (.inl hans)⟩
    · obtain ⟨p, hp, hover⟩ := Option.map_eq_some_iff.1 hview
      exact ⟨p, hp, received_iff.2 (.inr hover)⟩
  · intro h n k hn hk
    rw [view, List.getElem?_map] at hk
    obtain ⟨⟨k, full⟩, hw, rfl⟩ := Option.map_eq_some_iff.1 hk
    obtain ⟨p, hp, hrec⟩ := h n k full hn hw
    rw [view_phases, hp, Option.map_some]
    exact (received_iff.1 hrec).imp (congrArg some) (congrArg some)

/-! ## One step -/

/-- What the slot does at one step of the querier. -/
theorem step_slot (hA : Slot.Alone s.view) (hok : OneByOne answer s a) (h : Step s a u) :
    (u.view = s.view ∧ Registered s a) ∨ ∃ b, Slot.Step s.view b u.view ∧
      Slot.OneByOne (fun k => fromUtf8 (answer k)) s.view b ∧ (Slot.Registered s.view b ↔ Registered s a) := by
  cases h with
  | call data appId openSocketId timeout =>
    obtain ⟨hslot, hret⟩ := hok
    refine .inr ⟨.call, ?_, ⟨hslot, fun p hp => ?_⟩, Iff.rfl⟩
    · simp only [view, List.map_append]
      exact .call
    · obtain ⟨q, hq, rfl⟩ := List.mem_map.1 hp
      have hdone := hret q hq
      rcases q with _ | _ | _ | ((_ | d | _ | r) | text) <;> simp_all [phase, QueryPc.isReturned]
  | @submitted k full timeout hk =>
    have hbegun : s.view.phases[k]? = some .begun := by rw [view_phases, hk]; rfl
    refine .inr ⟨.submit k, ?_, trivial, Iff.rfl⟩
    simp only [view, List.map_set, List.map_append]
    exact .submit hbegun
  | @sendFailed k full timeout hk =>
    have hbegun : s.view.phases[k]? = some .begun := by rw [view_phases, hk]; rfl
    refine .inr ⟨.fail k, ?_, trivial, Iff.rfl⟩
    simp only [view, List.map_set]
    exact .fail hbegun
  | @register k timeout hk =>
    have hsent : s.view.phases[k]? = some .sent := by rw [view_phases, hk]; rfl
    have hslot : s.pendingResponse = none := (hA.last k (.inr hsent)).1
    refine .inr ⟨.register k, ?_, trivial, Iff.rfl⟩
    rw [hslot]
    simp only [view, dropSender, List.map_set]
    exact .register hsent
  | @write packet rest ht =>
    refine .inr ⟨.write, ?_, trivial, Iff.rfl⟩
    have hq : s.view.queue = packet.1 :: rest.map Prod.fst := by rw [view, ht]; rfl
    simp only [view, List.map_append]
    exact .write hq
  | @ignored data hp =>
    have hnext : Slot.OneByOne (fun k => fromUtf8 (answer k)) s.view (.respond (fromUtf8 data)) := by
      obtain ⟨packet, hw, rfl⟩ := Option.map_eq_some_iff.1 hok
      simp [Slot.OneByOne, view, hw]
    refine .inr ⟨.respond (fromUtf8 data), ?_, hnext, Iff.rfl⟩
    simp only [view, List.length_append, List.length_singleton]
    exact .missed hp
  | @took k data hp =>
    have hnext : Slot.OneByOne (fun k => fromUtf8 (answer k)) s.view (.respond (fromUtf8 data)) := by
      obtain ⟨packet, hw, rfl⟩ := Option.map_eq_some_iff.1 hok
      simp [Slot.OneByOne, view, hw]
    refine .inr ⟨.respond (fromUtf8 data), ?_, hnext, Iff.rfl⟩
    rcases hA.holder k hp with hwait | hover
    · obtain ⟨p, hk, hphase⟩ := Option.map_eq_some_iff.1 ((view_phases s k).symm.trans hwait)
      obtain ⟨timeout, rfl⟩ := phase_eq_waiting.1 hphase
      simp only [view, sendTo, hk, List.map_set, List.length_append, List.length_singleton]
      exact .reached hp hwait
    · obtain ⟨p, hk, hphase⟩ := Option.map_eq_some_iff.1 ((view_phases s k).symm.trans hover)
      obtain ⟨d, rfl⟩ := phase_eq_over.1 hphase
      simp only [view, sendTo, hk, List.length_append, List.length_singleton]
      exact .late hp hover
  | @elapse k d hk =>
    have hwait : s.view.phases[k]? = some .waiting := by rw [view_phases, hk]; rfl
    refine .inr ⟨.expire k, ?_, trivial, Iff.rfl⟩
    simp only [view, List.map_set]
    exact .expire hwait
  | @received k timeout r hk =>
    have hans : s.view.phases[k]? = some (.answered (fromUtf8 r)) := by rw [view_phases, hk]; rfl
    have hsame : s.view.phases.set k (phase (.returned (fromUtf8 r))) = s.view.phases := by
      rw [phase_fromUtf8, set_of_getElem? hans]
    refine .inl ⟨?_, trivial⟩
    simp only [view, List.map_set] at hsame ⊢
    rw [hsame]
  | @closed k timeout hk =>
    have hfail : s.view.phases[k]? = some .failed := by rw [view_phases, hk]; rfl
    have hsame : s.view.phases.set k (phase (.returned (.error .responseChannelClosed))) = s.view.phases :=
      set_of_getElem? hfail
    refine .inl ⟨?_, trivial⟩
    simp only [view, List.map_set] at hsame ⊢
    rw [hsame]
  | stop => exact .inl ⟨rfl, trivial⟩

theorem keep_step (hA : Slot.Alone s.view) (hP : Delivered answer s) (hok : OneByOne answer s a)
    (h : step s a = some u) : Slot.Alone u.view ∧ (Delivered answer u ↔ Registered s a) := by
  rw [← answered_iff] at hP ⊢
  rcases step_slot hA hok (step_cases h) with ⟨hsame, hreg⟩ | ⟨b, hb, hbok, hreg⟩
  · rw [hsame]
    exact ⟨hA, iff_of_true hP hreg⟩
  · obtain ⟨hAu, hiff⟩ := Slot.alone_step hA hP hbok hb
    exact ⟨hAu, hiff.trans hreg⟩

end KnotLink.Rust.OpenSocketQuerier
