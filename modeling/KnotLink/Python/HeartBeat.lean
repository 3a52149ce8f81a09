import KnotLink.Lib.Run
import KnotLink.Python.TcpClient
/-!
# The heartbeat timer and `disconnect`

A `threading.Timer` that has run out calls `send_heart_beat`, which puts the next timer into `heart_beat_timer`:
it looks at `connected`, creates the timer, sets its `daemon` and starts it (tcpclient.py:51-56), each time through the
field. `disconnect` clears `connected` first, "to keep send_heart_beat from creating a timer again"
(tcpclient.py:147), then cancels the timer in the field and drops it (tcpclient.py:150-152). A call through the field is
two steps: the load of the field, and what is done to the timer that was loaded.

The order of `disconnect` is not enough: a timer thread past its look at `connected` arms a timer that `disconnect` did
not load, or finds `None` in the field (`timer_survives`). Nothing else goes wrong (`calm_throughout`), and each of the
two does (`violation_canReach`).
-/
namespace KnotLink.Python
open Lib

/-- A `threading.Timer`. -/
structure Timer where
  daemon : Bool
  started : Bool
  cancelled : Bool
  /-- It has run out and called its function. -/
  fired : Bool
  deriving DecidableEq, Repr

/-- It will call its function. -/
def Timer.armed (t : Timer) : Bool := t.started && !t.cancelled && !t.fired

/-- Where the timer thread stands. -/
inductive BeatPc where
  /-- Not in `send_heart_beat`. -/
  | idle
  | entered
  /-- At the write. -/
  | writing
  /-- In `start_heart_beat`, before it looks at `connected`. -/
  | checking
  | creating
  /-- Before it loads the field for `daemon`. -/
  | loadingDaemon
  | settingDaemon (i : Nat)
  /-- Before it loads the field for `start`. -/
  | loadingStart
  | starting (i : Nat)
  | raised
  deriving DecidableEq, Repr

/-- The new timer is in the field, and the timer thread still has to load it. -/
def BeatPc.needsField : BeatPc → Bool
  | .loadingDaemon | .settingDaemon _ | .loadingStart => true
  | _ => false

/-- Where the thread that calls `disconnect` stands. -/
inductive DisconnectPc where
  | notYet
  /-- Before it looks at the field. -/
  | looking
  /-- Before it loads the field for `cancel`. -/
  | loading
  | cancelling (i : Nat)
  | dropping
  | closing
  | finished
  | raised
  deriving DecidableEq, Repr

namespace DisconnectPc

/-- `disconnect` has not loaded the timer yet. -/
def early : DisconnectPc → Bool
  | notYet | looking | loading => true
  | _ => false

/-- It will cancel timer `i`, if that is the one in the field. -/
def cancels (d : DisconnectPc) (i : Nat) : Prop := d.early = true ∨ d = cancelling i

end DisconnectPc

structure HeartBeat where
  client : TcpClient
  timers : List Timer
  /-- `heart_beat_timer`. -/
  heartBeatTimer : Option Nat
  beat : BeatPc
  disconnect : DisconnectPc
  deriving DecidableEq, Repr

inductive HeartBeatAct where
  /-- A timer has run out. -/
  | fire (i : Nat)
  | test
  /-- All of `_write_with_length_prefix`: only what it leaves of `connected` matters here. -/
  | write (net : TcpClient.SendAll)
  | check
  | create
  | loadDaemon
  | setDaemon
  | loadStart
  | startTimer
  | clear
  | look
  | loadCancel
  | cancel
  | drop
  | close
  /-- Another thread clears `connected`. -/
  | lose
  deriving DecidableEq, Repr

namespace HeartBeat

/-- Behind `connect_to_server`: the first timer is started. -/
def start (client : TcpClient) : HeartBeat := ⟨client, [⟨true, true, false, false⟩], some 0, .idle, .notYet⟩

/-- Timer `i` after something was done to it. -/
def onTimer (s : HeartBeat) (i : Nat) (f : Timer → Timer) : List Timer := s.timers.modify i f

/-- `start` and the setter of `daemon` raise `RuntimeError` on a thread that was started. -/
def wasStarted (s : HeartBeat) (i : Nat) : Bool := s.timers[i]?.any Timer.started

/-- A load of the field by the timer thread; a call on `None` is an `AttributeError`. -/
def loaded (s : HeartBeat) (next : Nat → BeatPc) : BeatPc := (s.heartBeatTimer.map next).getD .raised

def step (s : HeartBeat) : HeartBeatAct → Option HeartBeat
  | .fire i => match s.timers[i]? with
    | some t =>
      if s.beat = .idle ∧ t.armed then
        some { s with timers := s.onTimer i fun t => { t with fired := true }, beat := .entered }
      else none
    | none => none
  | .test => if s.beat = .entered then some { s with beat := if s.client.connected then .writing else .idle } else none
  | .write net =>
    if s.beat = .writing then some { s with client := (s.client.sendData heartbeat net).1, beat := .checking } else none
  | .check => if s.beat = .checking then some { s with beat := if s.client.connected then .creating else .idle } else none
  | .create =>
    if s.beat = .creating then some { s with
      timers := s.timers ++ [⟨false, false, false, false⟩]
      heartBeatTimer := some s.timers.length
      beat := .loadingDaemon }
    else none
  | .loadDaemon => if s.beat = .loadingDaemon then some { s with beat := s.loaded .settingDaemon } else none
  | .setDaemon => match s.beat with
    | .settingDaemon i =>
      if s.wasStarted i then some { s with beat := .raised }
      else some { s with timers := s.onTimer i fun t => { t with daemon := true }, beat := .loadingStart }
    | _ => none
  | .loadStart => if s.beat = .loadingStart then some { s with beat := s.loaded .starting } else none
  | .startTimer => match s.beat with
    | .starting i =>
      if s.wasStarted i then some { s with beat := .raised }
      else some { s with timers := s.onTimer i fun t => { t with started := true }, beat := .idle }
    | _ => none
  | .clear =>
    if s.disconnect = .notYet then some { s with client := { s.client with connected := false }, disconnect := .looking }
    else none
  | .look =>
    if s.disconnect = .looking then
      some { s with disconnect := if s.heartBeatTimer.isSome then .loading else .closing }
    else none
  | .loadCancel =>
    if s.disconnect = .loading then some { s with disconnect := (s.heartBeatTimer.map .cancelling).getD .raised } else none
  | .cancel => match s.disconnect with
    | .cancelling i => some { s with timers := s.onTimer i fun t => { t with cancelled := true }, disconnect := .dropping }
    | _ => none
  | .drop => if s.disconnect = .dropping then some { s with heartBeatTimer := none, disconnect := .closing } else none
  | .close =>
    if s.disconnect = .closing then
      some { s with client := { s.client with socketOpen := false }, disconnect := .finished }
    else none
  | .lose => some { s with client := { s.client with connected := false } }

def system : System HeartBeat HeartBeatAct := ⟨step⟩

/-- Nothing has raised, and when both threads are done no timer is armed. -/
structure Calm (s : HeartBeat) : Prop where
  beat : s.beat ≠ .raised
  disconnect : s.disconnect ≠ .raised
  disarmed : s.disconnect = .finished → s.beat = .idle → ∀ t ∈ s.timers, t.armed = false

/-- The timer to cancel is not loaded between the look at `connected` and the assignment, and the field is not set to
`None` between the assignment and the load for `start`. -/
def Ordered (s : HeartBeat) : HeartBeatAct → Prop
  | .loadCancel => s.beat ≠ .creating
  | .drop => s.beat.needsField = false
  | _ => True

instance (s : HeartBeat) : (a : HeartBeatAct) → Decidable (Ordered s a)
  | .loadCancel => inferInstanceAs (Decidable (_ ≠ _))
  | .drop => inferInstanceAs (Decidable (_ = _))
  | .fire _ | .test | .write _ | .check | .create | .loadDaemon | .setDaemon | .loadStart | .startTimer | .clear | .look
  | .cancel | .close | .lose => inferInstanceAs (Decidable True)

/-- Timer `i` is not started yet; it is cancelled, or it is in the field and will be. -/
def Unstarted (s : HeartBeat) (i : Nat) : Prop :=
  ∃ t, s.timers[i]? = some t ∧ t.started = false ∧
    (t.cancelled = true ∨ s.heartBeatTimer = some i ∧ s.disconnect.cancels i)

/-- What holds while the timer thread is at each place. -/
def BeatAt (s : HeartBeat) : BeatPc → Prop
  | .idle | .entered | .writing | .checking => True
  | .creating => s.disconnect.early = true
  | .loadingDaemon | .loadingStart => ∃ i, s.heartBeatTimer = some i ∧ s.Unstarted i
  | .settingDaemon i => s.heartBeatTimer = some i ∧ s.Unstarted i
  | .starting i => s.Unstarted i
  | .raised => False

/-- What holds while `disconnect` is at each place. -/
def DisconnectAt (s : HeartBeat) : DisconnectPc → Prop
  | .notYet => ∃ i, s.heartBeatTimer = some i
  | .looking | .loading => s.client.connected = false ∧ ∃ i, s.heartBeatTimer = some i
  | .cancelling i => s.client.connected = false ∧ s.heartBeatTimer = some i
  | .dropping | .closing | .finished => s.client.connected = false
  | .raised => False

/-- An armed timer is the one in the field, and `disconnect` will cancel it. -/
structure Inv (s : HeartBeat) : Prop where
  armed : ∀ (i : Nat) (t : Timer), s.timers[i]? = some t → t.armed = true →
    s.beat = .idle ∧ s.heartBeatTimer = some i ∧ s.disconnect.cancels i
  beat : s.BeatAt s.beat
  disconnect : s.DisconnectAt s.disconnect

variable {s u : HeartBeat} {a : HeartBeatAct} {i j : Nat} {t : Timer}

theorem Inv.calm (hI : Inv s) : Calm s where
  beat hb := by
    have h := hI.beat
    rw [hb] at h
    exact h
  disconnect hd := by
    have h := hI.disconnect
    rw [hd] at h
    exact h
  disarmed hd _ t ht := by
    obtain ⟨i, hi⟩ := List.mem_iff_getElem?.1 ht
    by_contra harmed
    have h := (hI.armed i t hi (by simpa using harmed)).2.2
    simp [hd, DisconnectPc.cancels, DisconnectPc.early] at h

theorem getElem?_onTimer {f : Timer → Timer} :
    (s.onTimer i f)[j]? = some t ↔ ∃ t', s.timers[j]? = some t' ∧ t = if i = j then f t' else t' := by
  simp only [onTimer, List.getElem?_modify, Option.map_eq_map, Option.map_eq_some_iff]
  exact ⟨fun ⟨t', ht, h⟩ => ⟨t', ht, h.symm⟩, fun ⟨t', ht, h⟩ => ⟨t', ht, h.symm⟩⟩

/-- A connection that `disconnect` found up has not been disconnected. -/
theorem DisconnectAt.notYet_of_connected (h : s.DisconnectAt s.disconnect) (hc : s.client.connected = true) :
    s.disconnect = .notYet := by
  cases hd : s.disconnect <;> simp_all [DisconnectAt]

theorem BeatAt.mono {b : BeatPc} (h : s.BeatAt b) (hfield : u.heartBeatTimer = s.heartBeatTimer)
    (hun : ∀ i, s.Unstarted i → u.Unstarted i)
    (hearly : b = .creating → s.disconnect.early = true → u.disconnect.early = true) : u.BeatAt b := by
  cases b with
  | creating => exact hearly rfl h
  | loadingDaemon | loadingStart =>
    obtain ⟨i, hi, ht⟩ := h
    exact ⟨i, hfield.trans hi, hun i ht⟩
  | settingDaemon i => exact ⟨hfield.trans h.1, hun i h.2⟩
  | starting i => exact hun i h
  | raised => exact h
  | idle | entered | writing | checking => trivial

/-- The timer thread goes on without touching a timer or the field. -/
theorem Inv.move (hI : Inv s) (hbusy : s.beat ≠ .idle) {q : BeatPc} {c : TcpClient}
    (hc : s.client.connected = false → c.connected = false) (hq : s.BeatAt q) : Inv { s with client := c, beat := q } where
  armed i t hi ht := absurd (hI.armed i t hi ht).1 hbusy
  beat := hq.mono rfl (fun _ h => h) fun _ h => h
  disconnect := by
    have h := hI.disconnect
    cases hd : s.disconnect <;> rw [hd] at h <;> simp only [DisconnectAt] at h ⊢
    · exact h
    · exact h.imp_left hc
    · exact h.imp_left hc
    · exact h.imp_left hc
    · exact hc h
    · exact hc h
    · exact hc h

/-- `disconnect` goes on without touching a timer or the field, or another thread clears `connected`. -/
theorem Inv.pass (hI : Inv s) {d : DisconnectPc} {c : TcpClient}
    (hcancels : ∀ i, s.heartBeatTimer = some i → s.disconnect.cancels i → d.cancels i)
    (hearly : s.beat = .creating → s.disconnect.early = true → d.early = true)
    (hd : DisconnectAt { s with client := c, disconnect := d } d) : Inv { s with client := c, disconnect := d } where
  armed i t hi ht := by
    obtain ⟨hb, hf, hcan⟩ := hI.armed i t hi ht
    exact ⟨hb, hf, hcancels i hf hcan⟩
  beat := by
    refine hI.beat.mono rfl (fun i hun => ?_) hearly
    obtain ⟨t, ht, hs, he⟩ := hun
    exact ⟨t, ht, hs, he.imp_right fun h => ⟨h.1, hcancels i h.1 h.2⟩⟩
  disconnect := hd

theorem inv_fire (hI : Inv s) (hi : s.timers[i]? = some t) (ht : t.armed = true) :
    Inv { s with timers := s.onTimer i fun t => { t with fired := true }, beat := .entered } := by
  obtain ⟨-, hf, -⟩ := hI.armed i t hi ht
  refine ⟨fun j t' hj ht' => ?_, trivial, hI.disconnect⟩
  obtain ⟨t₀, hj₀, rfl⟩ := getElem?_onTimer.1 hj
  split at ht'
  · simp [Timer.armed] at ht'
  · rename_i hne
    have hf' := (hI.armed j t₀ hj₀ ht').2.1
    exact absurd (Option.some.inj (hf.symm.trans hf')) hne

theorem inv_create (hI : Inv s) (hb : s.beat = .creating) :
    Inv { s with
      timers := s.timers ++ [⟨false, false, false, false⟩]
      heartBeatTimer := some s.timers.length
      beat := .loadingDaemon } := by
  have hearly : s.disconnect.early = true := by simpa [hb, BeatAt] using hI.beat
  refine ⟨fun j t hj ht => ?_, ⟨_, rfl, _, getElem?_concat_iff.2 (.inl ⟨rfl, rfl⟩), rfl, .inr ⟨rfl, .inl hearly⟩⟩, ?_⟩
  · rcases getElem?_concat_iff.1 hj with ⟨-, rfl⟩ | hj
    · cases ht
    · exact absurd ((hI.armed j t hj ht).1.symm.trans hb) (by simp)
  · have h := hI.disconnect
    cases hd : s.disconnect <;> simp_all [DisconnectAt, DisconnectPc.early]

theorem loaded_of (h : s.heartBeatTimer = some i) (next : Nat → BeatPc) : s.loaded next = next i := by
  rw [loaded, h]
  rfl

theorem modify_concat {ts : List Timer} {f : Timer → Timer} : (ts ++ [t]).modify ts.length f = ts ++ [f t] := by
  rw [List.modify_eq_take_cons_drop (by simp)]
  simp

theorem not_wasStarted (h : s.Unstarted i) : s.wasStarted i = false := by
  obtain ⟨t, ht, hs, -⟩ := h
  simp [wasStarted, ht, hs]

theorem inv_setDaemon (hI : Inv s) (hb : s.beat = .settingDaemon i) :
    Inv { s with timers := s.onTimer i fun t => { t with daemon := true }, beat := .loadingStart } := by
  obtain ⟨hf, t, ht, hs, he⟩ : s.heartBeatTimer = some i ∧ s.Unstarted i := by simpa [hb, BeatAt] using hI.beat
  refine ⟨fun j t' hj ht' => ?_, ⟨i, hf, _, getElem?_onTimer.2 ⟨t, ht, (if_pos rfl).symm⟩, hs, he⟩, hI.disconnect⟩
  obtain ⟨t₀, hj₀, rfl⟩ := getElem?_onTimer.1 hj
  have harmed : t₀.armed = true := by
    split at ht' <;> exact ht'
  exact absurd ((hI.armed j t₀ hj₀ harmed).1.symm.trans hb) (by simp)

theorem inv_startTimer (hI : Inv s) (hb : s.beat = .starting i) :
    Inv { s with timers := s.onTimer i fun t => { t with started := true }, beat := .idle } := by
  obtain ⟨t, ht, hs, he⟩ : s.Unstarted i := by simpa [hb, BeatAt] using hI.beat
  refine ⟨fun j t' hj ht' => ?_, trivial, hI.disconnect⟩
  obtain ⟨t₀, hj₀, rfl⟩ := getElem?_onTimer.1 hj
  split at ht'
  · -- armed only if `disconnect` has not cancelled it meanwhile
    rename_i hij
    subst hij
    obtain rfl := Option.some.inj (ht.symm.trans hj₀)
    refine ⟨rfl, he.resolve_left fun hcan => ?_⟩
    simp [Timer.armed, hcan] at ht'
  · exact absurd ((hI.armed j t₀ hj₀ ht').1.symm.trans hb) (by simp)

theorem inv_cancel (hI : Inv s) (hd : s.disconnect = .cancelling i) :
    Inv { s with timers := s.onTimer i fun t => { t with cancelled := true }, disconnect := .dropping } := by
  have hdown : s.client.connected = false ∧ s.heartBeatTimer = some i := by simpa [hd, DisconnectAt] using hI.disconnect
  -- no other timer is cancelled any more
  have hother : ∀ j, s.disconnect.cancels j → j = i := by
    intro j hj
    rcases hj with hj | hj
    · simp [hd, DisconnectPc.early] at hj
    · exact (DisconnectPc.cancelling.inj (hd.symm.trans hj)).symm
  refine ⟨fun j t hj ht => ?_, hI.beat.mono rfl (fun j hun => ?_) fun _ hearly => ?_, hdown.1⟩
  · obtain ⟨t₀, hj₀, rfl⟩ := getElem?_onTimer.1 hj
    split at ht
    · simp [Timer.armed] at ht
    · rename_i hne
      exact absurd (hother j (hI.armed j t₀ hj₀ ht).2.2).symm hne
  · obtain ⟨t, ht, hs, he⟩ := hun
    refine ⟨_, getElem?_onTimer.2 ⟨t, ht, rfl⟩, ?_, .inl ?_⟩
    · split <;> exact hs
    · split
      · rfl
      · rename_i hne
        exact he.resolve_right fun h => hne (hother j h.2).symm
  · simp [hd, DisconnectPc.early] at hearly

theorem inv_drop (hI : Inv s) (hd : s.disconnect = .dropping) (hok : s.beat.needsField = false) :
    Inv { s with heartBeatTimer := none, disconnect := .closing } := by
  have hnone : ∀ j, ¬ s.disconnect.cancels j := by simp [hd, DisconnectPc.cancels, DisconnectPc.early]
  have hbeat := hI.beat
  refine ⟨fun j t hj ht => absurd (hI.armed j t hj ht).2.2 (hnone j), ?_, ?_⟩
  · cases hb : s.beat <;> simp only [hb, BeatPc.needsField, BeatAt, Bool.true_eq_false] at hok hbeat ⊢
    · simp [hd, DisconnectPc.early] at hbeat
    · obtain ⟨t, ht, hs, he⟩ := hbeat
      exact ⟨t, ht, hs, .inl (he.resolve_right fun h => hnone _ h.2)⟩
  · simpa [hd, DisconnectAt] using hI.disconnect

theorem inv_step (hI : Inv s) (hok : Ordered s a) (h : step s a = some u) : Inv u := by
  have hbeat := hI.beat
  have hdis := hI.disconnect
  cases a with
  | fire i =>
    simp only [step] at h
    split at h
    · rename_i t hi
      split at h
      · rename_i ht
        cases h
        exact inv_fire hI hi ht.2
      · cases h
    · cases h
  | test =>
    simp only [step] at h
    split at h <;> cases h
    rename_i hb
    refine hI.move (by simp [hb]) id ?_
    cases s.client.connected <;> trivial
  | write net =>
    simp only [step] at h
    split at h <;> cases h
    rename_i hb
    refine hI.move (by simp [hb]) (fun hc => ?_) trivial
    simp [TcpClient.sendData, TcpClient.writeWithLengthPrefix, hc]
  | check =>
    simp only [step] at h
    split at h <;> cases h
    rename_i hb
    cases hc : s.client.connected with
    | false => exact hI.move (by simp [hb]) id trivial
    | true =>
      refine hI.move (by simp [hb]) id ?_
      show s.disconnect.early = true
      rw [hdis.notYet_of_connected hc]
      rfl
  | create =>
    simp only [step] at h
    split at h <;> cases h
    rename_i hb
    exact inv_create hI hb
  | loadDaemon =>
    simp only [step] at h
    split at h <;> cases h
    rename_i hb
    rw [hb] at hbeat
    obtain ⟨i, hi, hun⟩ := hbeat
    rw [loaded_of hi]
    exact hI.move (q := .settingDaemon i) (by simp [hb]) id ⟨hi, hun⟩
  | setDaemon =>
    simp only [step] at h
    split at h
    · rename_i i hb
      rw [hb] at hbeat
      rw [not_wasStarted hbeat.2] at h
      cases h
      exact inv_setDaemon hI hb
    · cases h
  | loadStart =>
    simp only [step] at h
    split at h <;> cases h
    rename_i hb
    rw [hb] at hbeat
    obtain ⟨i, hi, hun⟩ := hbeat
    rw [loaded_of hi]
    exact hI.move (q := .starting i) (by simp [hb]) id hun
  | startTimer =>
    simp only [step] at h
    split at h
    · rename_i i hb
      rw [hb] at hbeat
      rw [not_wasStarted hbeat] at h
      cases h
      exact inv_startTimer hI hb
    · cases h
  | clear =>
    simp only [step] at h
    split at h <;> cases h
    rename_i hd
    rw [hd] at hdis
    exact hI.pass (fun _ _ _ => .inl rfl) (fun _ _ => rfl) ⟨rfl, hdis⟩
  | look =>
    simp only [step] at h
    split at h <;> cases h
    rename_i hd
    rw [hd] at hdis
    obtain ⟨hdown, i, hi⟩ := hdis
    have hsome : s.heartBeatTimer.isSome = true := by rw [hi]; rfl
    rw [hsome]
    exact hI.pass (fun _ _ _ => .inl rfl) (fun _ _ => rfl) ⟨hdown, i, hi⟩
  | loadCancel =>
    simp only [step] at h
    split at h <;> cases h
    rename_i hd
    rw [hd] at hdis
    obtain ⟨hdown, i, hi⟩ := hdis
    have hload : (s.heartBeatTimer.map .cancelling).getD .raised = DisconnectPc.cancelling i := by
      rw [hi]
      rfl
    rw [hload]
    refine hI.pass (d := .cancelling i) (fun j hj _ => .inr ?_) (fun hb => absurd hb hok) ⟨hdown, hi⟩
    rw [Option.some.inj (hi.symm.trans hj)]
  | cancel =>
    simp only [step] at h
    split at h
    · rename_i i hd
      cases h
      exact inv_cancel hI hd
    · cases h
  | drop =>
    simp only [step] at h
    split at h <;> cases h
    rename_i hd
    exact inv_drop hI hd hok
  | close =>
    simp only [step] at h
    split at h <;> cases h
    rename_i hd
    rw [hd] at hdis
    exact hI.pass (by simp [hd, DisconnectPc.cancels, DisconnectPc.early]) (by simp [hd, DisconnectPc.early]) hdis
  | lose =>
    cases h
    refine hI.pass (fun _ _ h => h) (fun _ h => h) ?_
    cases hd : s.disconnect <;> simp_all [DisconnectAt]

theorem inv_start (client : TcpClient) : Inv (start client) where
  armed i t hi ht := by
    obtain rfl : i = 0 := by
      by_contra hne
      simp [start, hne] at hi
    exact ⟨rfl, rfl, .inl rfl⟩
  beat := trivial
  disconnect := ⟨0, rfl⟩

/-- **No timer is armed when both threads are done, and neither has raised**, throughout every run whose steps meet
`Ordered`. -/
theorem calm_throughout {client : TcpClient} {as : List HeartBeatAct} {t : HeartBeat}
    (h : system.Runs Ordered (start client) as t) : system.Throughout Calm (start client) as := by
  intro bs u hbs hrun
  exact (h.throughout (I := Inv) (fun hI hok hst => inv_step hI hok hst) (inv_start client) bs u hbs hrun).calm

/-- `disconnect` begins when the next timer is assigned, cancels it before it is started, and sets the field to `None`
when the timer thread has loaded it for `start`. -/
def cancelledBeforeStart : List HeartBeatAct :=
  [.fire 0, .test, .write .ok, .check, .create, .clear, .look, .loadCancel, .loadDaemon, .setDaemon, .cancel, .loadStart,
    .drop, .startTimer, .close]

theorem calm_throughout_cancelled :
    ∃ t, system.Runs Ordered (start .fresh) cancelledBeforeStart t ∧ t.disconnect = .finished ∧ t.beat = .idle ∧
      system.Throughout Calm (start .fresh) cancelledBeforeStart := by
  obtain ⟨t, hrun, ht⟩ := system.exists_run Ordered (start .fresh) cancelledBeforeStart
    (fun t => t.disconnect = .finished ∧ t.beat = .idle) (by decide +kernel)
  exact ⟨t, hrun, ht.1, ht.2, calm_throughout hrun⟩

/-- `disconnect` loads the timer between the look at `connected` and the assignment: both threads are done, the next
timer is armed. The field is set to `None` between the assignment and the start: the timer thread raises. -/
theorem timer_survives :
    (∃ as t, system.Runs (fun _ _ => True) (start .fresh) as t ∧ t.disconnect = .finished ∧ t.beat = .idle ∧
      ∃ x ∈ t.timers, x.armed = true) ∧
    ∃ as t, system.Runs (fun _ _ => True) (start .fresh) as t ∧ t.beat = .raised := by
  constructor
  · obtain ⟨t, hrun, ht⟩ := system.exists_run (fun _ _ => True) (start .fresh)
      [.fire 0, .test, .write .ok, .check, .clear, .look, .loadCancel, .create, .loadDaemon, .setDaemon, .loadStart,
        .startTimer, .cancel, .drop, .close]
      (fun t => t.disconnect = .finished ∧ t.beat = .idle ∧ ∃ x ∈ t.timers, x.armed = true) (by decide +kernel)
    exact ⟨_, t, hrun, ht⟩
  · obtain ⟨t, hrun, ht⟩ := system.exists_run (fun _ _ => True) (start .fresh)
      [.fire 0, .test, .write .ok, .check, .create, .clear, .look, .loadCancel, .cancel, .drop, .loadDaemon]
      (fun t => t.beat = .raised) (by decide +kernel)
    exact ⟨_, t, hrun, ht⟩

/-! ## Every other step goes wrong -/

/-- The timer thread has looked at `connected` before, and `disconnect` has loaded another timer than the one it
creates. -/
theorem creating_canReach (hb : s.beat = .creating) (hd : s.disconnect = .cancelling j) :
    system.CanReach (fun _ _ => True) (fun t => ¬ Calm t) s := by
  obtain ⟨client, timers, field, beat, disconnect⟩ := s
  obtain rfl : beat = .creating := hb
  obtain rfl : disconnect = .cancelling j := hd
  let old := timers.modify j fun t => { t with cancelled := true }
  let n := old.length
  have hcancel : system.step ⟨client, timers, field, .creating, .cancelling j⟩ .cancel =
      some ⟨client, old, field, .creating, .dropping⟩ := rfl
  have hdrop : system.step ⟨client, old, field, .creating, .dropping⟩ .drop =
      some ⟨client, old, none, .creating, .closing⟩ := rfl
  have hclose : system.step ⟨client, old, none, .creating, .closing⟩ .close =
      some ⟨{ client with socketOpen := false }, old, none, .creating, .finished⟩ := rfl
  generalize ({ client with socketOpen := false } : TcpClient) = closed at hclose
  have hcreate : system.step ⟨closed, old, none, .creating, .finished⟩ .create =
      some ⟨closed, old ++ [⟨false, false, false, false⟩], some n, .loadingDaemon, .finished⟩ := rfl
  have hloadDaemon : system.step ⟨closed, old ++ [⟨false, false, false, false⟩], some n, .loadingDaemon, .finished⟩
      .loadDaemon = some ⟨closed, old ++ [⟨false, false, false, false⟩], some n, .settingDaemon n, .finished⟩ := rfl
  have hdaemon : system.step ⟨closed, old ++ [⟨false, false, false, false⟩], some n, .settingDaemon n, .finished⟩
      .setDaemon = some ⟨closed, old ++ [⟨true, false, false, false⟩], some n, .loadingStart, .finished⟩ := by
    simp [system, step, onTimer, wasStarted, n, modify_concat]
  have hloadStart : system.step ⟨closed, old ++ [⟨true, false, false, false⟩], some n, .loadingStart, .finished⟩
      .loadStart = some ⟨closed, old ++ [⟨true, false, false, false⟩], some n, .starting n, .finished⟩ := rfl
  have hstart : system.step ⟨closed, old ++ [⟨true, false, false, false⟩], some n, .starting n, .finished⟩ .startTimer =
      some ⟨closed, old ++ [⟨true, true, false, false⟩], some n, .idle, .finished⟩ := by
    simp [system, step, onTimer, wasStarted, n, modify_concat]
  refine .before trivial hcancel (.before trivial hdrop (.before trivial hclose (.before trivial hcreate
    (.before trivial hloadDaemon (.before trivial hdaemon (.before trivial hloadStart (.before trivial hstart
      (.now fun hcalm => ?_))))))))
  have hoff := hcalm.disarmed rfl rfl ⟨true, true, false, false⟩ (by simp)
  cases hoff

/-- The timer thread has assigned the next timer and finds the field empty. -/
theorem dropped_canReach (hb : s.beat.needsField = true) (hf : s.heartBeatTimer = none) :
    system.CanReach (fun _ _ => True) (fun t => ¬ Calm t) s := by
  have hbad : ∀ {u : HeartBeat}, u.beat = .raised → ¬ Calm u := fun hu hcalm => hcalm.beat hu
  have hstart : ∀ {u : HeartBeat}, u.beat = .loadingStart → u.heartBeatTimer = none →
      system.CanReach (fun _ _ => True) (fun t => ¬ Calm t) u := by
    intro u hu hfu
    have hst : system.step u .loadStart = some { u with beat := .raised } := by simp [system, step, loaded, hu, hfu]
    exact .before trivial hst (.now (hbad rfl))
  cases hs : s.beat with
  | loadingDaemon =>
    have hst : system.step s .loadDaemon = some { s with beat := .raised } := by simp [system, step, loaded, hs, hf]
    exact .before trivial hst (.now (hbad rfl))
  | loadingStart => exact hstart hs hf
  | settingDaemon i =>
    cases hw : s.wasStarted i with
    | true =>
      have hst : system.step s .setDaemon = some { s with beat := .raised } := by simp [system, step, hs, hw]
      exact .before trivial hst (.now (hbad rfl))
    | false =>
      have hst : system.step s .setDaemon =
          some { s with timers := s.onTimer i fun t => { t with daemon := true }, beat := .loadingStart } := by
        simp [system, step, hs, hw]
      exact .before trivial hst (hstart rfl hf)
  | idle | entered | writing | checking | creating | raised => simp [hs, BeatPc.needsField] at hb
  | starting i => simp [hs, BeatPc.needsField] at hb

/-- **Nothing else may happen**: behind any other step a timer can be armed at the end, or a thread raises. -/
theorem violation_canReach (hno : ¬ Ordered s a) (h : step s a = some u) :
    system.CanReach (fun _ _ => True) (fun t => ¬ Calm t) u := by
  cases a with
  | loadCancel =>
    have hb : s.beat = .creating := by simpa [Ordered] using hno
    simp only [step] at h
    split at h <;> cases h
    cases hf : s.heartBeatTimer with
    | none => exact .now fun hcalm => hcalm.disconnect rfl
    | some j => exact creating_canReach (j := j) hb rfl
  | drop =>
    have hb : s.beat.needsField = true := by simpa [Ordered] using hno
    simp only [step] at h
    split at h <;> cases h
    exact dropped_canReach hb rfl
  | fire i => exact absurd trivial hno
  | write net => exact absurd trivial hno
  | test | check | create | loadDaemon | setDaemon | loadStart | startTimer | clear | look | cancel | close | lose =>
    exact absurd trivial hno

end HeartBeat
end KnotLink.Python
