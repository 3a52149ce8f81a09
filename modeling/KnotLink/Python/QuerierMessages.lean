import KnotLink.Python.QuerierThreads
/-!
# Every message once

One result and one event serve all calls of `query` and all messages. Every message is consumed exactly
once, by a call or by the callback, as long as a stored one is picked up before the next call begins or the
next message is stored (`consumed_once`).
-/
namespace KnotLink.Python
open Lib

/-- `_query` will not raise. -/
def Sendable (cfg : QuerierConfig) (data : PyStr) : Bool :=
  match queryMessage cfg.appID cfg.openSocketID data with
  | .error _ => false
  | .ok sData => sData.length ≤ MAX_MSG_SIZE

theorem sendQuery_sendable {cfg : QuerierConfig} {data : PyStr} (h : Sendable cfg data = true) (c : TcpClient)
    (net : TcpClient.SendAll) : ∃ c', sendQuery cfg.appID cfg.openSocketID c data net = (c', .ok ()) := by
  unfold Sendable at h
  unfold sendQuery
  cases hm : queryMessage cfg.appID cfg.openSocketID data with
  | error e =>
    rw [hm] at h
    cases h
  | ok sData =>
    rw [hm] at h
    simp only [TcpClient.sendData, TcpClient.writeWithLengthPrefix, TcpClient.packet_ok (of_decide_eq_true h)]
    cases c.connected
    · exact ⟨c, rfl⟩
    · cases net <;> exact ⟨_, rfl⟩

namespace Pc

/-- The call will come to `query_event.wait` or is blocked there. -/
def willWait (cfg : QuerierConfig) : Pc → Bool
  | .begun data _ => Sendable cfg data
  | .sent _ | .waiting _ => true
  | _ => false

/-- The call will find the event set. -/
def willRead (cfg : QuerierConfig) : Pc → Bool
  | .begun data _ => Sendable cfg data
  | .sent _ | .woken => true
  | _ => false

theorem live_of_willWait {cfg : QuerierConfig} {p : Pc} (h : p.willWait cfg = true) : p.live cfg = true := by
  cases p with
  | begun data timed =>
    obtain ⟨c, hc⟩ := sendQuery_sendable h .fresh .ok
    exact live_begun hc
  | sent timed | waiting timed => rfl
  | woken | expired | ended => cases h

theorem willRead_wake {cfg : QuerierConfig} {p : Pc} (h : willWait cfg p = true) : willRead cfg p.wake = true := by
  cases p <;> first | exact h | rfl

end Pc

namespace QuerierThreads
variable {τ : Type} {cfg : QuerierConfig} {s u : QuerierThreads τ} {a : QuerierAct τ}

/-- A call begins only when no stored message waits for another call, and a message that is going to be
stored finds the event clear and exactly one call that can still return, and this will wait for it. -/
def PickedUp (cfg : QuerierConfig) (s : QuerierThreads τ) : QuerierAct τ → Prop
  | .call _ _ => s.shared.queryEvent = true → ∀ p ∈ s.calls, p.live cfg = false
  | .recv _ => s.shared.isQuerying = true → s.shared.timeoutOccurred = false → s.shared.queryEvent = false ∧
      ∃ k : Fin s.calls.length, (s.calls.get k).willWait cfg = true ∧
        ∀ j : Fin s.calls.length, (s.calls.get j).live cfg = true → j = k
  | .disconnect | .disconnectShared => False
  | _ => True

instance (s : QuerierThreads τ) : (a : QuerierAct τ) → Decidable (PickedUp cfg s a)
  | .call _ _ => inferInstanceAs (Decidable (_ → ∀ p ∈ s.calls, p.live cfg = false))
  | .recv _ =>
    inferInstanceAs (Decidable (_ → _ → _ ∧ ∃ _ : Fin s.calls.length, _ ∧ ∀ _ : Fin s.calls.length, _ → _))
  | .disconnect | .disconnectShared => inferInstanceAs (Decidable False)
  | .send _ _ | .wait _ | .timeout _ | .finish _ | .callback | .callbackRaises _ | .lose =>
    inferInstanceAs (Decidable True)

/-- The messages that calls of `query` have returned. -/
def returned (s : QuerierThreads τ) : List τ := s.returns.filterMap (·.2)

/-- The stored message, while a call in progress is to return it. -/
def slot (cfg : QuerierConfig) (s : QuerierThreads τ) : List τ :=
  if s.shared.queryEvent && s.calls.any (Pc.live cfg) then s.shared.queryResult.toList else []

theorem any_live_iff {calls : List Pc} :
    calls.any (Pc.live cfg) = true ↔ ∃ (k : Nat) (p : Pc), calls[k]? = some p ∧ p.live cfg = true := by
  rw [List.any_eq_true]
  constructor
  · rintro ⟨p, hp, hl⟩
    obtain ⟨k, hk⟩ := List.mem_iff_getElem?.1 hp
    exact ⟨k, p, hk, hl⟩
  · rintro ⟨k, p, hk, hl⟩
    exact ⟨p, List.mem_of_getElem? hk, hl⟩

/-- A move that leaves a call as live as it was. -/
theorem any_live_set {calls : List Pc} {k : Nat} {p q : Pc} (hk : calls[k]? = some p) (hpq : q.live cfg = p.live cfg) :
    (calls.set k q).any (Pc.live cfg) = calls.any (Pc.live cfg) := by
  rw [Bool.eq_iff_iff, any_live_iff, any_live_iff]
  constructor
  · rintro ⟨j, r, hj, hr⟩
    rcases (getElem?_set_iff hk).1 hj with ⟨rfl, rfl⟩ | ⟨-, hj⟩
    · exact ⟨j, p, hk, hpq ▸ hr⟩
    · exact ⟨j, r, hj, hr⟩
  · rintro ⟨j, r, hj, hr⟩
    by_cases hjk : j = k
    · subst hjk
      obtain rfl : r = p := Option.some.inj (hj.symm.trans hk)
      exact ⟨j, q, (getElem?_set_iff hk).2 (.inl ⟨rfl, rfl⟩), hpq ▸ hr⟩
    · exact ⟨j, r, (getElem?_set_iff hk).2 (.inr ⟨hjk, hj⟩), hr⟩

/-- What holds between the steps of such a run. -/
structure Once (cfg : QuerierConfig) (s : QuerierThreads τ) : Prop where
  woken : ∀ k : Nat, s.calls[k]? = some .woken → s.shared.queryEvent = true
  alone : s.shared.queryEvent = true → ∀ (j k : Nat) (p q : Pc), s.calls[j]? = some p → s.calls[k]? = some q →
    p.live cfg = true → q.live cfg = true → j = k
  reads : s.shared.queryEvent = true → ∀ (k : Nat) (p : Pc), s.calls[k]? = some p → p.live cfg = true →
    p.willRead cfg = true ∧ s.shared.queryResult.isSome = true
  consumed : (s.returned ++ s.callbacks ++ s.calling.toList ++ s.slot cfg).Perm s.handed
  returns : ∀ r ∈ s.returns, r.2.isSome = true

theorem slot_clear (h : s.shared.queryEvent = false) : s.slot cfg = [] := by simp [slot, h]

theorem slot_idle (h : s.calls.any (Pc.live cfg) = false) : s.slot cfg = [] := by simp [slot, h]

/-- One more message on both sides. -/
theorem perm_insert {A S H : List τ} (B : List τ) (h : (A ++ S).Perm H) : (A ++ B ++ S).Perm (H ++ B) := by
  refine .trans ?_ (h.append_right B)
  rw [List.append_assoc, List.append_assoc]
  exact List.perm_append_comm.append_left A

/-- With the event clear nothing is stored and nobody is woken. -/
theorem Once.of_clear (he : s.shared.queryEvent = false) (hw : ∀ k : Nat, s.calls[k]? ≠ some .woken)
    (hc : (s.returned ++ s.callbacks ++ s.calling.toList).Perm s.handed) (hr : ∀ r ∈ s.returns, r.2.isSome = true) :
    Once cfg s := by
  refine ⟨fun k hk => absurd hk (hw k), ?_, ?_, ?_, hr⟩
  · simp [he]
  · simp [he]
  · rw [slot_clear he, List.append_nil]
    exact hc

theorem Once.clear (hI : Once cfg s) (he : s.shared.queryEvent = false) : (∀ k : Nat, s.calls[k]? ≠ some .woken) ∧
    (s.returned ++ s.callbacks ++ s.calling.toList).Perm s.handed := by
  constructor
  · intro k hk
    rw [hI.woken k hk] at he
    cases he
  · have := hI.consumed
    rwa [slot_clear he, List.append_nil] at this

/-- A call moves on and stays as live as it was. -/
theorem Once.move (hI : Once cfg s) {k : Nat} {p q : Pc} (hk : s.calls[k]? = some p) (hpq : q.live cfg = p.live cfg)
    (hw : q = .woken → s.shared.queryEvent = true)
    (hr : s.shared.queryEvent = true → q.live cfg = true → p.willRead cfg = true → q.willRead cfg = true) :
    Once cfg { s with calls := s.calls.set k q } := by
  refine ⟨?_, ?_, ?_, ?_, hI.returns⟩
  · intro j hj
    rcases (getElem?_set_iff hk).1 hj with ⟨-, hq⟩ | ⟨-, hj⟩
    · exact hw hq.symm
    · exact hI.woken j hj
  · intro he i j r r' hi hj hr hr'
    -- a live call of the new list is one of the old list at the same place
    have hold : ∀ {i : Nat} {r : Pc}, (s.calls.set k q)[i]? = some r → r.live cfg = true →
        ∃ r', s.calls[i]? = some r' ∧ r'.live cfg = true := by
      intro i r hi hl
      rcases (getElem?_set_iff hk).1 hi with ⟨rfl, rfl⟩ | ⟨-, hi⟩
      · exact ⟨p, hk, hpq ▸ hl⟩
      · exact ⟨r, hi, hl⟩
    obtain ⟨r₁, h₁, hl₁⟩ := hold hi hr
    obtain ⟨r₂, h₂, hl₂⟩ := hold hj hr'
    exact hI.alone he i j r₁ r₂ h₁ h₂ hl₁ hl₂
  · intro he j r hj hl
    rcases (getElem?_set_iff hk).1 hj with ⟨rfl, rfl⟩ | ⟨-, hj⟩
    · have := hI.reads he j p hk (hpq ▸ hl)
      exact ⟨hr he hl this.1, this.2⟩
    · exact hI.reads he j r hj hl
  · have hslot : slot cfg { s with calls := s.calls.set k q } = s.slot cfg := by
      simp only [slot, any_live_set hk hpq]
    rw [hslot]
    exact hI.consumed

/-- A call ends or gives up while the event is clear. -/
theorem Once.stop (hI : Once cfg s) (he : s.shared.queryEvent = false) {k : Nat} {p q : Pc}
    (hk : s.calls[k]? = some p) (hq : q ≠ .woken) : Once cfg { s with calls := s.calls.set k q } := by
  obtain ⟨hw, hc⟩ := hI.clear he
  refine .of_clear he ?_ hc hI.returns
  intro j hj
  rcases (getElem?_set_iff hk).1 hj with ⟨-, h⟩ | ⟨-, hj⟩
  · exact hq h.symm
  · exact hw j hj

/-- The call that was woken returns the stored message. -/
theorem Once.returned (hI : Once cfg s) {k : Nat} (hk : s.calls[k]? = some .woken) :
    Once cfg { s with
      shared := { s.shared with isQuerying := false }
      calls := s.calls.set k .ended
      returns := s.returns ++ [(k, s.shared.queryResult)] } := by
  have he := hI.woken k hk
  have hnone : ∀ (j : Nat) (p : Pc), (s.calls.set k .ended)[j]? = some p → p.live cfg = false := by
    intro j p hj
    rcases (getElem?_set_iff hk).1 hj with ⟨-, rfl⟩ | ⟨hjk, hj⟩
    · rfl
    · rw [← Bool.not_eq_true]
      exact fun hl => hjk (hI.alone he j k p .woken hj hk hl rfl)
  refine ⟨fun _ _ => he, ?_, ?_, ?_, ?_⟩
  · intro _ i j p q hi hj hp
    rw [hnone i p hi] at hp
    cases hp
  · intro _ j p hj hp
    rw [hnone j p hj] at hp
    cases hp
  · have hslot : s.slot cfg = s.shared.queryResult.toList := by
      have hany : s.calls.any (Pc.live cfg) = true := any_live_iff.2 ⟨k, .woken, hk, rfl⟩
      simp [slot, he, hany]
    have hidle : (s.calls.set k .ended).any (Pc.live cfg) = false := by
      rw [← Bool.not_eq_true, any_live_iff]
      rintro ⟨j, p, hj, hp⟩
      rw [hnone j p hj] at hp
      cases hp
    have hc := hI.consumed
    rw [hslot, List.append_assoc s.returned] at hc
    rw [slot_idle hidle, List.append_nil, QuerierThreads.returned, List.filterMap_append, List.append_assoc _ s.callbacks]
    refine .trans ?_ hc
    refine .trans ?_ (perm_insert s.shared.queryResult.toList (.refl (s.returned ++ (s.callbacks ++ s.calling.toList))))
    cases s.shared.queryResult <;> simp [QuerierThreads.returned]
  · intro r hr
    rcases List.mem_append.1 hr with hr | hr
    · exact hI.returns r hr
    · rw [List.mem_singleton.1 hr]
      exact (hI.reads he k .woken hk rfl).2

/-- A message is stored for the one call in progress. -/
theorem Once.stored (hI : Once cfg s) (he : s.shared.queryEvent = false)
    {k : Fin s.calls.length} (hk : (s.calls.get k).willWait cfg = true)
    (halone : ∀ j : Fin s.calls.length, (s.calls.get j).live cfg = true → j = k) {m : τ} :
    Once cfg { s with
      shared := { s.shared with queryResult := some m, queryEvent := true }
      calls := s.calls.map Pc.wake
      handed := s.handed ++ [m] } := by
  have hold : ∀ (j : Nat) (p : Pc), (s.calls.map Pc.wake)[j]? = some p → p.live cfg = true →
      j = k.val ∧ p = (s.calls.get k).wake := by
    intro j p hj hp
    rw [List.getElem?_map, Option.map_eq_some_iff] at hj
    obtain ⟨q, hj, rfl⟩ := hj
    obtain ⟨hlt, rfl⟩ := List.getElem?_eq_some_iff.1 hj
    rw [Pc.live_wake] at hp
    have hjk := halone ⟨j, hlt⟩ hp
    subst hjk
    exact ⟨rfl, rfl⟩
  refine ⟨fun _ _ => rfl, ?_, ?_, ?_, hI.returns⟩
  · intro _ i j p q hi hj hp hq
    exact (hold i p hi hp).1.trans (hold j q hj hq).1.symm
  · intro _ j p hj hp
    obtain ⟨-, rfl⟩ := hold j p hj hp
    exact ⟨Pc.willRead_wake hk, rfl⟩
  · have hany : (s.calls.map Pc.wake).any (Pc.live cfg) = true := by
      refine any_live_iff.2 ⟨k, s.calls[k].wake, by simp, ?_⟩
      rw [Pc.live_wake]
      exact Pc.live_of_willWait hk
    have hconsumed := (hI.clear he).2
    simp only [slot, hany, Bool.and_self, if_true, Option.toList_some]
    exact hconsumed.append_right [m]

/-- The callback has been given its message, whether it returns or raises. -/
theorem Once.calledBack (hI : Once cfg s) {m : τ} (hc : s.calling = some m) :
    (s.returned ++ (s.callbacks ++ [m]) ++ [] ++ s.slot cfg).Perm s.handed := by
  have := hI.consumed
  rw [hc, Option.toList_some] at this
  simp only [List.append_nil, ← List.append_assoc]
  exact this

theorem once_step (hcb : cfg.callback = true) (hI : Once cfg s) (hok : PickedUp cfg s a)
    (h : step cfg s a = some u) : Once cfg u := by
  cases step_cases h with
  | call data timed =>
    have hslot : s.slot cfg = [] := by
      cases he : s.shared.queryEvent with
      | false => exact slot_clear he
      | true =>
        apply slot_idle
        rw [List.any_eq_false]
        simpa using hok he
    have hc := hI.consumed
    rw [hslot, List.append_nil] at hc
    refine .of_clear rfl ?_ hc hI.returns
    intro k hk
    rcases getElem?_concat_iff.1 hk with ⟨-, hp⟩ | hk
    · cases hp
    · have he := hI.woken k hk
      have := hok he _ (List.mem_of_getElem? hk)
      cases this
  | @sent k data timed net c hk he =>
    have := hI.move hk (q := .sent timed) (Pc.live_begun he).symm (by simp) (fun _ _ _ => rfl)
    exact ⟨this.woken, this.alone, this.reads, this.consumed, this.returns⟩
  | @raised k data timed net c e hk he =>
    have hend : Once cfg { s with calls := s.calls.set k .ended } := by
      cases hset : s.shared.queryEvent with
      | false => exact hI.stop hset hk (by simp)
      | true =>
        -- the call that is to read the stored message is one that can send
        have hlive : (Pc.begun data timed).live cfg = false := by
          rw [← Bool.not_eq_true]
          intro hl
          obtain ⟨c', hc'⟩ := sendQuery_sendable (hI.reads hset _ _ hk hl).1 s.client net
          cases hc'.symm.trans he
        exact hI.move hk hlive.symm (by simp) (fun _ h => by cases h)
    exact ⟨hend.woken, hend.alone, hend.reads, hend.consumed, hend.returns⟩
  | passed hk he => exact hI.move hk rfl (fun _ => he) (fun _ _ _ => rfl)
  | blocked hk he => exact hI.stop he hk (by simp)
  | timeout hk =>
    have hclear : s.shared.queryEvent = false := by
      rw [← Bool.not_eq_true]
      intro hset
      cases (hI.reads hset _ _ hk rfl).1
    exact hI.stop hclear hk (by simp)
  | returned hk => exact hI.returned hk
  | timedOut hk =>
    have := hI.move hk (q := .ended) rfl (by simp) (fun _ _ h => h)
    exact ⟨this.woken, this.alone, this.reads, this.consumed, this.returns⟩
  | stored hr hc hq ht =>
    obtain ⟨hclear, k, hk, halone⟩ := hok hq ht
    exact hI.stored hclear hk halone
  | passedOn hr hc hn =>
    refine ⟨hI.woken, hI.alone, hI.reads, ?_, hI.returns⟩
    have := hI.consumed
    rw [hc, Option.toList_none, List.append_nil] at this
    simp only [hcb, if_true, Option.toList_some]
    exact perm_insert _ this
  | callback hc => exact ⟨hI.woken, hI.alone, hI.reads, hI.calledBack hc, hI.returns⟩
  | callbackRaised hc => exact ⟨hI.woken, hI.alone, hI.reads, hI.calledBack hc, hI.returns⟩
  | lose hr hc => exact ⟨hI.woken, hI.alone, hI.reads, hI.consumed, hI.returns⟩
  | disconnect => exact hok.elim
  | disconnectShared hn => exact hok.elim

/-- **Every message is consumed exactly once**, in every run whose steps meet `PickedUp`: what calls have
returned, what the callback has been given, what it is about to be given and what is stored for the call in
progress are together the messages handed over. -/
theorem consumed_once (hcb : cfg.callback = true) {client : TcpClient} {receiving : Bool} {as : List (QuerierAct τ)}
    {t : QuerierThreads τ} (h : (system cfg).Runs (PickedUp cfg) (start client receiving) as t) :
    (t.returned ++ t.callbacks ++ t.calling.toList ++ t.slot cfg).Perm t.handed ∧
    (∀ r ∈ t.returns, r.2.isSome = true) ∧
    ((∀ p ∈ t.calls, p.live cfg = false) → t.calling = none → (t.returned ++ t.callbacks).Perm t.handed) := by
  have hinv : Once cfg t := by
    apply h.invariant (I := Once cfg)
    · intro s a u hI hok hstep
      exact once_step hcb hI hok hstep
    · exact .of_clear rfl (by simp [start]) (by simp [start, returned]) (by simp [start])
  refine ⟨hinv.consumed, hinv.returns, ?_⟩
  intro hidle hcalling
  have hc := hinv.consumed
  have hany : t.calls.any (Pc.live cfg) = false := by
    rw [List.any_eq_false]
    simpa using hidle
  rwa [slot_idle hany, hcalling, Option.toList_none, List.append_nil, List.append_nil] at hc

/-- An unsolicited message, an answer that comes before its call waits, and a late one. -/
def threeMessages : List (QuerierAct Nat) :=
  [.recv 10, .callback, .call (str "a") false, .send 0 .ok, .recv 11, .wait 0, .finish 0,
    .call (str "b") true, .send 1 .ok, .wait 1, .timeout 1, .finish 1, .recv 12, .callback]

theorem consumed_once_three : ∃ t : QuerierThreads Nat,
    (system ⟨none, none, true⟩).Runs (PickedUp ⟨none, none, true⟩) (start .fresh true) threeMessages t ∧
    (t.returned = [11] ∧ t.callbacks = [10, 12]) ∧
    (t.returned ++ t.callbacks ++ t.calling.toList ++ t.slot ⟨none, none, true⟩).Perm t.handed := by
  obtain ⟨t, hrun, ht⟩ := (system ⟨none, none, true⟩).exists_run (PickedUp ⟨none, none, true⟩) (start .fresh true)
    threeMessages (fun t => t.returned = [11] ∧ t.callbacks = [10, 12]) (by decide +kernel)
  exact ⟨t, hrun, ht, (consumed_once rfl hrun).1⟩

/-- Two messages arrive during one call: the first is overwritten before it is returned. -/
def overwrite : List (QuerierAct Nat) :=
  [.call (str "a") false, .send 0 .ok, .wait 0, .recv 10, .recv 11, .finish 0]

theorem message_overwritten : ∃ (as : List (QuerierAct Nat)) (t : QuerierThreads Nat),
    (system ⟨none, none, true⟩).Runs (fun _ a => a ≠ .disconnect ∧ a ≠ .disconnectShared) (start .fresh true) as t ∧
    t.calls = [.ended] ∧ t.calling = none ∧ t.handed = [10, 11] ∧ t.returned = [11] ∧ t.callbacks = [] :=
  ⟨overwrite, System.exists_run _ _ _ _ _ (by decide +kernel)⟩

end QuerierThreads
end KnotLink.Python
