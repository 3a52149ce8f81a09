import KnotLink.Rust.Querier
/-!
# Rust `query_l` when the client task has ended (open_socket_querier.rs:52-74)

`pending_response` belongs to the querier as well as to the task, so the sender in it is not dropped when
`TcpClient::run` returns: who waits for it without a timeout is not told. A call that begins later fails at its `send`
and never comes to the slot. `left_waiting_iff`: of any number of calls, in every order, only one can be left, the one
that was the last to put its sender into the slot, if nothing was handed over since and it has no timeout; and it is
left for good. As in `Querier.lean`, `new` is taken to register through a clone of `tx`, since the one it uses is moved
(open_socket_querier.rs:40-47).
-/
namespace KnotLink.Rust
open Lib

/-- How many steps a call has before it at most. -/
def QueryPc.stepsLeft : QueryPc → Nat
  | .begun .. => 3
  | .sent _ => 2
  | .waiting .. => 1
  | .returned _ => 0

/-- The timeout of a call that has not returned. -/
def QueryPc.timeout? : QueryPc → Option (Option Nat)
  | .begun _ timeout | .sent timeout | .waiting timeout _ => some timeout
  | .returned _ => none

/-- The call has no step to take. -/
def QueryPc.atRest : QueryPc → Bool
  | .waiting none .open | .returned _ => true
  | _ => false

/-- A step of a call that was begun. -/
def QuerierAct.own : QuerierAct → Bool
  | .send _ | .register _ | .elapse _ | .resume _ => true
  | .call .. | .write | .onData _ | .stop => false

/-- The timeout of the call that begins. -/
def QuerierAct.began? : QuerierAct → Option (Option Nat)
  | .call _ _ _ timeout => some timeout
  | _ => none

namespace OpenSocketQuerier

/-- Whose sender a step leaves in the slot. -/
def slotAfter (slot : Option Nat) : QuerierAct → Option Nat
  | .register k => some k
  | .onData _ => none
  | _ => slot

/-- The last call that has put its sender into the slot, if nothing was handed over since. -/
def lastRegistered (as : List QuerierAct) : Option Nat := as.foldl slotAfter none

/-- The calls' timeouts. -/
def timeouts (as : List QuerierAct) : List (Option Nat) := as.filterMap QuerierAct.began?

/-- No call has a step to take. -/
def Rests (s : OpenSocketQuerier) : Prop := ∀ a, a.own = true → system.step s a = none

/-- Call `k` has not returned. -/
def Left (s : OpenSocketQuerier) (k : Nat) : Prop := ∃ pc, s.calls[k]? = some pc ∧ pc.isReturned = false

variable {s t u : OpenSocketQuerier} {a : QuerierAct} {as : List QuerierAct}

/-! ## Channels that are settled -/

/-- The receiver of call `k`, if it is open, finds `c`. -/
inductive Settled (calls : List QueryPc) (k : Nat) (c : Oneshot) : List QueryPc → Prop where
  | same (hk : ∀ timeout, calls[k]? ≠ some (.waiting timeout .open)) : Settled calls k c calls
  | set {timeout : Option Nat} (hk : calls[k]? = some (.waiting timeout .open)) :
      Settled calls k c (calls.set k (.waiting timeout c))

theorem settled_sendTo (calls : List QueryPc) (k : Nat) (data : Bytes) :
    Settled calls k (.sent data) (sendTo calls k data) := by
  unfold sendTo
  split
  · rename_i hk
    exact .set hk
  · rename_i hk
    exact .same hk

theorem settled_dropSender (calls : List QueryPc) (k : Nat) : Settled calls k .closed (dropSender calls (some k)) := by
  simp only [dropSender]
  split
  · rename_i hk
    exact .set hk
  · rename_i hk
    exact .same hk

section
variable {calls calls' : List QueryPc} {j k : Nat} {c : Oneshot}

theorem Settled.stepsLeft (h : Settled calls k c calls') :
    total QueryPc.stepsLeft calls' = total QueryPc.stepsLeft calls := by
  cases h with
  | same => rfl
  | @set timeout hk => exact Nat.add_right_cancel (total_set (q := .waiting timeout c) (f := QueryPc.stepsLeft) hk)

theorem Settled.length (h : Settled calls k c calls') : calls'.length = calls.length := by
  cases h <;> simp

/-- The call waits as before, with the same timeout. -/
theorem Settled.before (h : Settled calls k c calls') {pc : QueryPc} (hj : calls'[j]? = some pc) :
    calls[j]? = some pc ∨ ∃ timeout, calls[j]? = some (.waiting timeout .open) ∧ pc = .waiting timeout c := by
  cases h with
  | same => exact .inl hj
  | @set timeout hk =>
    rcases (getElem?_set_iff hk).1 hj with ⟨rfl, rfl⟩ | ⟨-, hj⟩
    · exact .inr ⟨timeout, hk, rfl⟩
    · exact .inl hj

/-- A call without an open channel stays where it is. -/
theorem Settled.other (h : Settled calls k c calls') {pc : QueryPc} (hj : calls[j]? = some pc)
    (hpc : ∀ timeout, pc ≠ .waiting timeout .open) : calls'[j]? = some pc := by
  cases h with
  | same => exact hj
  | set hk =>
    refine (getElem?_set_iff hk).2 (.inr ⟨?_, hj⟩)
    rintro rfl
    exact hpc _ (Option.some.inj (hj.symm.trans hk))

/-- Who still has an open channel is another call. -/
theorem Settled.still_open (h : Settled calls k c calls') (hc : c ≠ .open) {timeout : Option Nat}
    (hj : calls'[j]? = some (.waiting timeout .open)) : j ≠ k ∧ calls[j]? = some (.waiting timeout .open) := by
  cases h with
  | same hk => exact ⟨fun h => hk timeout (h ▸ hj), hj⟩
  | set hk =>
    rcases (getElem?_set_iff hk).1 hj with ⟨-, h⟩ | h
    · cases h
      exact absurd rfl hc
    · exact h

end

/-! ## The calls' steps -/

/-- How many steps the calls have before them at most. -/
def left (s : OpenSocketQuerier) : Nat := total QueryPc.stepsLeft s.calls

theorem left_set {pc : QueryPc} {k : Nat} {calls : List QueryPc} (hk : calls[k]? = some pc) (pc' : QueryPc)
    (hlt : pc'.stepsLeft < pc.stepsLeft) :
    total QueryPc.stepsLeft (calls.set k pc') < total QueryPc.stepsLeft calls := by
  have := total_set (q := pc') (f := QueryPc.stepsLeft) hk
  omega

theorem left_step (h : system.step s a = some u) :
    u.left + a.own.toNat ≤ s.left + 3 * a.began?.isSome.toNat := by
  cases step_cases h with
  | call => simp [left, total_append, total, QueryPc.stepsLeft, QuerierAct.own, QuerierAct.began?]
  | submitted hk | sendFailed hk | elapse hk | received hk | closed hk =>
    exact left_set hk _ (by simp [QueryPc.stepsLeft])
  | @register k timeout hk =>
    cases hp : s.pendingResponse with
    | none => exact left_set hk _ (by simp [QueryPc.stepsLeft])
    | some j =>
      have hset := settled_dropSender s.calls j
      have hlt := left_set (hset.other hk (by simp)) (.waiting timeout .open) (by simp [QueryPc.stepsLeft])
      rw [hset.stepsLeft] at hlt
      exact hlt
  | took => exact Nat.le_of_eq (settled_sendTo _ _ _).stepsLeft
  | write | ignored | stop => exact Nat.le_refl _

theorem rests_or_step (s : OpenSocketQuerier) : Rests s ∨ ∃ a u, a.own = true ∧ system.step s a = some u := by
  by_cases h : Rests s
  · exact .inl h
  · simp only [Rests, not_forall] at h
    obtain ⟨a, hown, hstep⟩ := h
    exact .inr ⟨a, _, hown, (Option.ne_none_iff_exists'.1 hstep).choose_spec⟩

/-- The calls that were begun come to rest, whoever else moves. -/
theorem canReach_rests (s : OpenSocketQuerier) : system.CanReach (fun _ a => a.own = true) Rests s := by
  refine (System.canReach_of_measure (I := fun _ => True) (m := left) (fun s _ => ?_) trivial).mono fun _ h => h.2
  refine (rests_or_step s).imp_right ?_
  rintro ⟨a, u, hown, hstep⟩
  have hle := left_step hstep
  have hbegan : a.began?.isSome = false := by cases a <;> first | rfl | cases hown
  rw [hown, Bool.toNat_true, hbegan, Bool.toNat_false] at hle
  exact ⟨a, u, hown, hstep, trivial, by omega⟩

/-! ## The slot -/

/-- What holds of the slot and the calls between two steps; `times` are the timeouts of the calls. -/
structure Inv (times : List (Option Nat)) (s : OpenSocketQuerier) : Prop where
  length : s.calls.length = times.length
  timeout : ∀ (k : Nat) pc timeout, s.calls[k]? = some pc → pc.timeout? = some timeout → times[k]? = some timeout
  /-- An open channel has its sender in the slot. -/
  waits : ∀ (k : Nat) timeout, s.calls[k]? = some (.waiting timeout .open) → s.pendingResponse = some k
  /-- Whose sender is in the slot waits, or has timed out. -/
  holder : ∀ k, s.pendingResponse = some k →
    (∃ timeout, s.calls[k]? = some (.waiting timeout .open)) ∨ ∃ d, times[k]? = some (some d)

variable {times : List (Option Nat)}

theorem inv_start : Inv [] start where
  length := rfl
  timeout k pc timeout hk := by simp [start] at hk
  waits k timeout hk := by simp [start] at hk
  holder k hk := by cases hk

/-- Call `k` moves on, not to the slot, and from there only where it has a timeout. -/
theorem Inv.move (hI : Inv times s) {k : Nat} {pc : QueryPc} (hk : s.calls[k]? = some pc) (pc' : QueryPc)
    (htime : ∀ timeout, pc'.timeout? = some timeout → pc.timeout? = some timeout)
    (hpc' : ∀ timeout, pc' ≠ .waiting timeout .open) (hpc : ∀ timeout, pc = .waiting timeout .open → timeout ≠ none)
    (tx : List (Nat × Bytes)) : Inv times { s with calls := s.calls.set k pc', tx } := by
  refine ⟨by simpa using hI.length, ?_, ?_, ?_⟩
  · intro j q timeout hj hq
    rcases (getElem?_set_iff hk).1 hj with ⟨rfl, rfl⟩ | ⟨-, hj⟩
    · exact hI.timeout j pc timeout hk (htime timeout hq)
    · exact hI.timeout j q timeout hj hq
  · intro j timeout hj
    rcases (getElem?_set_iff hk).1 hj with ⟨rfl, h⟩ | ⟨-, hj⟩
    · exact absurd h.symm (hpc' timeout)
    · exact hI.waits j timeout hj
  · intro j hj
    rcases hI.holder j hj with ⟨timeout, hwait⟩ | hd
    · by_cases hjk : j = k
      · subst hjk
        obtain rfl := Option.some.inj (hk.symm.trans hwait)
        obtain ⟨d, rfl⟩ := Option.ne_none_iff_exists'.1 (hpc timeout rfl)
        exact .inr ⟨d, hI.timeout j _ _ hwait rfl⟩
      · exact .inl ⟨timeout, (getElem?_set_iff hk).2 (.inr ⟨hjk, hwait⟩)⟩
    · exact .inr hd

/-- The sender in the slot is used or dropped: then no channel is open. -/
theorem Inv.settled (hI : Inv times s) {c : Oneshot} (hc : c ≠ .open) {calls : List QueryPc}
    (h : s.pendingResponse = none ∧ calls = s.calls ∨ ∃ k, s.pendingResponse = some k ∧ Settled s.calls k c calls) :
    Inv times { s with pendingResponse := none, calls } := by
  rcases h with ⟨hp, rfl⟩ | ⟨k, hp, hset⟩
  · exact { hI with waits := fun j timeout hj => by rw [← hp]; exact hI.waits j timeout hj, holder := nofun }
  · refine ⟨hset.length.trans hI.length, ?_, ?_, nofun⟩
    · intro j pc timeout hj hpc
      rcases hset.before hj with hbefore | ⟨timeout', hbefore, rfl⟩
      · exact hI.timeout j pc timeout hbefore hpc
      · exact hI.timeout j _ timeout hbefore hpc
    · intro j timeout hj
      obtain ⟨hne, hj⟩ := hset.still_open hc hj
      exact absurd (Option.some.inj ((hI.waits j timeout hj).symm.trans hp)) hne

theorem Inv.begin (hI : Inv times s) (full : Bytes) (timeout : Option Nat) :
    Inv (times ++ [timeout]) { s with calls := s.calls ++ [.begun full timeout] } := by
  refine ⟨by simp [hI.length], ?_, ?_, ?_⟩
  · intro j q t hj hq
    rcases getElem?_concat_iff.1 hj with ⟨rfl, rfl⟩ | hj
    · obtain rfl := Option.some.inj hq
      rw [hI.length]
      exact List.getElem?_concat_length
    · exact getElem?_concat_iff.2 (.inr (hI.timeout j q t hj hq))
  · intro j t hj
    rcases getElem?_concat_iff.1 hj with ⟨-, h⟩ | hj
    · cases h
    · exact hI.waits j t hj
  · intro j hj
    exact (hI.holder j hj).imp (fun ⟨t, hwait⟩ => ⟨t, getElem?_concat_iff.2 (.inr hwait)⟩)
      (fun ⟨d, hd⟩ => ⟨d, getElem?_concat_iff.2 (.inr hd)⟩)

theorem Inv.register (hI : Inv times s) {k : Nat} {timeout : Option Nat} (hk : s.calls[k]? = some (.sent timeout)) :
    Inv times { s with
      pendingResponse := some k
      calls := (dropSender s.calls s.pendingResponse).set k (.waiting timeout .open) } := by
  obtain ⟨hdrop, hk'⟩ : Inv times { s with pendingResponse := none, calls := dropSender s.calls s.pendingResponse } ∧
      (dropSender s.calls s.pendingResponse)[k]? = some (.sent timeout) := by
    cases hp : s.pendingResponse with
    | none => exact ⟨hI.settled (c := .closed) nofun (.inl ⟨hp, rfl⟩), hk⟩
    | some j =>
      have hset := settled_dropSender s.calls j
      exact ⟨hI.settled (c := .closed) nofun (.inr ⟨j, hp, hset⟩), hset.other hk nofun⟩
  refine ⟨by simpa using hdrop.length, ?_, ?_, ?_⟩
  · intro j q t hj hq
    rcases (getElem?_set_iff hk').1 hj with ⟨rfl, rfl⟩ | ⟨-, hj⟩
    · exact hI.timeout j _ t hk hq
    · exact hdrop.timeout j q t hj hq
  · intro j t hj
    rcases (getElem?_set_iff hk').1 hj with ⟨rfl, -⟩ | ⟨-, hj⟩
    · rfl
    · cases hdrop.waits j t hj
  · rintro _ ⟨⟩
    exact .inl ⟨timeout, (getElem?_set_iff hk').2 (.inl ⟨rfl, rfl⟩)⟩

theorem inv_step (hI : Inv times s) (h : system.step s a = some u) (hb : a.began? = none) : Inv times u := by
  cases step_cases h with
  | call => cases hb
  | submitted hk => exact hI.move hk _ (by rintro _ ⟨⟩; rfl) (by rintro _ ⟨⟩) (by rintro _ ⟨⟩) _
  | sendFailed hk | received hk | closed hk =>
    exact hI.move hk _ (by rintro _ ⟨⟩) (by rintro _ ⟨⟩) (by rintro _ ⟨⟩) s.tx
  | elapse hk => exact hI.move hk _ (by rintro _ ⟨⟩) (by rintro _ ⟨⟩) (by rintro _ ⟨⟩ ⟨⟩) s.tx
  | register hk => exact hI.register hk
  | @took k data hp =>
    have hset := hI.settled (c := .sent data) nofun (.inr ⟨k, hp, settled_sendTo s.calls k data⟩)
    exact { hset with }
  | ignored | write | stop => exact { hI with }

theorem inv_run (h : system.Runs (fun _ _ => True) start as s) :
    s.pendingResponse = lastRegistered as ∧ Inv (timeouts as) s := by
  refine h.history (I := fun as s => s.pendingResponse = lastRegistered as ∧ Inv (timeouts as) s)
    (fun {as s a u} hI _ hstep => ⟨?_, ?_⟩) ⟨rfl, inv_start⟩
  · rw [lastRegistered, List.foldl_append, ← lastRegistered, ← hI.1]
    cases step_cases hstep with
    | ignored hp => exact hp
    | call | submitted | sendFailed | register | write | took | elapse | received | closed | stop => rfl
  · have htimes : timeouts (as ++ [a]) = timeouts as ++ a.began?.toList := by
      cases hb : a.began? <;> simp [timeouts, hb]
    rw [htimes]
    cases hb : a.began? with
    | none => simpa using inv_step hI.2 hstep hb
    | some timeout =>
      cases a with
      | call =>
        cases hb
        cases hstep
        exact hI.2.begin _ _
      | send | register | write | onData | elapse | resume | stop => cases hb

/-! ## Who is left -/

/-- What a call waits for when nobody has a step to take. -/
theorem Rests.left {k : Nat} {pc : QueryPc} (hrest : Rests s) (hk : s.calls[k]? = some pc)
    (hpc : pc.isReturned = false) : pc = .waiting none .open := by
  cases pc with
  | begun full timeout =>
    have := hrest (.send k) rfl
    simp only [system, step, hk] at this
    split at this <;> cases this
  | sent timeout =>
    have := hrest (.register k) rfl
    simp [system, step, hk] at this
  | waiting timeout channel =>
    cases channel with
    | sent r =>
      have := hrest (.resume k) rfl
      simp [system, step, hk] at this
    | closed =>
      have := hrest (.resume k) rfl
      simp [system, step, hk] at this
    | «open» =>
      cases timeout with
      | none => rfl
      | some d =>
        have := hrest (.elapse k) rfl
        simp [system, step, hk] at this
  | returned => cases hpc

theorem rests_iff : Rests s ↔ ∀ pc ∈ s.calls, pc.atRest = true := by
  constructor
  · intro hrest pc hpc
    obtain ⟨k, hk⟩ := List.getElem?_of_mem hpc
    cases hret : pc.isReturned with
    | true => cases pc <;> first | rfl | cases hret
    | false => rw [hrest.left hk hret]; rfl
  · intro hall a hown
    cases hstep : system.step s a with
    | none => rfl
    | some u =>
      have hat := fun k pc (hk : s.calls[k]? = some pc) => hall pc (List.mem_of_getElem? hk)
      cases step_cases hstep with
      | submitted hk | sendFailed hk | register hk | elapse hk | received hk | closed hk =>
        have := hat _ _ hk
        simp [QueryPc.atRest] at this
      | call | write | ignored | took | stop => cases hown

instance (s : OpenSocketQuerier) : Decidable (Rests s) := decidable_of_iff _ rests_iff.symm

/-- The task has ended, no call is on its way to the slot, and call `k` waits for its sender. -/
structure Stranded (k : Nat) (s : OpenSocketQuerier) : Prop where
  ended : s.running = false
  sent : ∀ (j : Nat) timeout, s.calls[j]? ≠ some (.sent timeout)
  waits : s.calls[k]? = some (.waiting none .open)

theorem stranded_step {k : Nat} (hI : Stranded k s) (h : system.step s a = some u) : Stranded k u := by
  have hset : ∀ (j : Nat) pc pc', s.calls[j]? = some pc → pc ≠ .waiting none .open → (∀ timeout, pc' ≠ .sent timeout) →
      Stranded k { s with calls := s.calls.set j pc' } := by
    intro j pc pc' hj hpc hpc'
    refine ⟨hI.ended, fun i timeout hi => ?_, (getElem?_set_iff hj).2 (.inr ⟨?_, hI.waits⟩)⟩
    · rcases (getElem?_set_iff hj).1 hi with ⟨-, h⟩ | ⟨-, hi⟩
      · exact hpc' timeout h.symm
      · exact hI.sent i timeout hi
    · rintro rfl
      exact hpc (Option.some.inj (hj.symm.trans hI.waits))
  cases a with
  | call data appId openSocketId timeout =>
    cases h
    refine ⟨hI.ended, fun j t hj => ?_, getElem?_concat_iff.2 (.inr hI.waits)⟩
    rcases getElem?_concat_iff.1 hj with ⟨-, h⟩ | hj
    · cases h
    · exact hI.sent j t hj
  | send j =>
    simp only [system, step, hI.ended] at h
    split at h
    · rename_i hj
      cases h
      exact { hset j _ (.returned (.error .sendFailed)) hj (by simp) (by simp) with ended := rfl }
    · cases h
  | register j =>
    simp only [system, step] at h
    split at h
    · rename_i hj
      exact absurd hj (hI.sent j _)
    · cases h
  | write | onData data => simp [system, step, hI.ended] at h
  | elapse j =>
    simp only [system, step] at h
    split at h
    · rename_i hj
      cases h
      exact hset j _ _ hj (by simp) (by simp)
    · cases h
  | resume j =>
    simp only [system, step] at h
    split at h
    · rename_i hj
      cases h
      exact hset j _ _ hj (by simp) (by simp)
    · rename_i hj
      cases h
      exact hset j _ _ hj (by simp) (by simp)
    · cases h
  | stop =>
    cases h
    exact { hI with ended := rfl }

theorem Rests.stranded {k : Nat} (hrest : Rests s) (hend : s.running = false) (hk : Left s k) : Stranded k s := by
  obtain ⟨pc, hk, hpc⟩ := hk
  obtain rfl := hrest.left hk hpc
  refine ⟨hend, fun j timeout hj => ?_, hk⟩
  cases hrest.left hj rfl

theorem stranded_run {k : Nat} (hI : Stranded k s) (h : system.Runs (fun _ _ => True) s as t) : Left t k :=
  ⟨_, (h.invariant (fun hI _ hstep => stranded_step hI hstep) hI).waits, rfl⟩

/-- **Who is left waiting**, for every order of any number of calls, responses and the end of the task. The calls take
at most three steps each, and come to rest whoever else moves. At rest a call has not returned exactly if it was the
last to put its sender into the slot, nothing was handed over since, and it has no timeout: no more than one call. When
the task has ended as well, that call never returns, whatever is called or sent later. -/
theorem left_waiting_iff (h : system.Runs (fun _ _ => True) start as s) :
    as.countP QuerierAct.own ≤ 3 * (timeouts as).length ∧ system.CanReach (fun _ a => a.own = true) Rests s ∧
    (Rests s → ∀ k, Left s k ↔ lastRegistered as = some k ∧ (timeouts as)[k]? = some none) ∧
    (Rests s → s.running = false → ∀ k, Left s k → ∀ bs t, system.Runs (fun _ _ => True) s bs t → Left t k) := by
  obtain ⟨hslot, hI⟩ := inv_run h
  refine ⟨?_, canReach_rests s, fun hrest k => ⟨?_, ?_⟩, fun hrest hend k hk bs t hbs => ?_⟩
  · have hle := h.countP_le_add (I := fun _ => True) (fun _ _ hstep => ⟨trivial, left_step hstep⟩) trivial
    rw [show start.left = 0 from rfl, Nat.zero_add] at hle
    rw [timeouts, List.length_filterMap_eq_countP]
    exact Nat.le_of_add_right_le hle
  · rintro ⟨pc, hk, hpc⟩
    obtain rfl := hrest.left hk hpc
    exact ⟨hslot.symm.trans (hI.waits k none hk), hI.timeout k _ none hk rfl⟩
  · rintro ⟨hlast, htime⟩
    rcases hI.holder k (hslot.trans hlast) with ⟨timeout, hwait⟩ | ⟨d, hd⟩
    · exact ⟨_, hwait, rfl⟩
    · cases htime.symm.trans hd
  · exact stranded_run (hrest.stranded hend hk) hbs

/-- Three calls, of which the second has a timeout; the task ends before the third one comes to the slot. A fourth call
begins behind the end. -/
def endedRun : List QuerierAct :=
  let begin (timeout : Option Nat) : QuerierAct := .call "q".toList "A".toList "1".toList timeout
  [begin none, .send 0, .write, begin (some 5), .send 1, begin none, .send 2, .register 0, .register 1, .stop,
    .register 2, .resume 0, .resume 1, begin none, .send 3]

theorem left_waiting_iff_endedRun : ∃ s, system.Runs (fun _ _ => True) start endedRun s ∧ (∀ k, Left s k ↔ k = 2) ∧
    ∀ bs t, system.Runs (fun _ _ => True) s bs t → Left t 2 := by
  obtain ⟨s, hrun, hrest, hend⟩ := system.exists_run (fun _ _ => True) start endedRun
    (fun s => Rests s ∧ s.running = false) (by decide +kernel)
  obtain ⟨-, -, hleft, hstays⟩ := left_waiting_iff hrun
  have hleft : ∀ k, Left s k ↔ k = 2 := by
    intro k
    rw [hleft hrest k, show lastRegistered endedRun = some 2 from rfl, Option.some_inj]
    refine ⟨fun h => h.1.symm, ?_⟩
    rintro rfl
    exact ⟨rfl, rfl⟩
  exact ⟨s, hrun, hleft, hstays hrest hend 2 ((hleft 2).2 rfl)⟩

end OpenSocketQuerier
end KnotLink.Rust
