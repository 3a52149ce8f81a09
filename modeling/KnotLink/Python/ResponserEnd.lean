import KnotLink.Python.ResponserReplies
/-!
# The Python responser when its connection ends

Here everything may happen to the two threads: the connection is lost between any two steps, `sendall` fails after
any part of a frame, the handler raises. What the worker has sent is always the replies to the first requests, whole
and in order, and behind them at most a part of the next one (`account_run`). Once the client is not connected nothing
more is sent but by a `sendall` that the worker was in already, the handler is called once more at most, for the
request in hand, and the worker ends by itself (`responser_ends`).
-/
namespace KnotLink.Python.ResponserThreads
open Lib

variable {f : Nat → Handler} {client : TcpClient} {s t u : ResponserThreads} {a : ResponserAct}

def connected (s : ResponserThreads) : Bool := s.responser.KLresponser.connected

def sent (s : ResponserThreads) : Bytes := s.responser.KLresponser.sent

/-- The worker may write: the client is connected, or was when the worker looked. -/
def writable (s : ResponserThreads) : Prop := s.connected = true ∨ s.worker.bytes ≠ []

/-! ## What is on the wire -/

/-- The bytes are the beginning of the reply the handler made to the request, the `n`-th one. -/
def PartOfReply (f : Nat → Handler) (n : Nat) (r : PyStr × PyStr) (part : Bytes) : Prop :=
  ∃ m, outcome (f n r.1) r.2 = some [m] ∧ part <+: frame m

/-- The requests are those done, the one in hand and those in the queue. The first `n` of those done did not fail and
what was made of them is on the wire; behind it there is part of the next reply at most, and nothing while the client
is connected or the worker in `sendall`, where all that are done are on the wire. -/
structure Account (f : Nat → Handler) (client : TcpClient) (s : ResponserThreads) (done : List (PyStr × PyStr))
    (n : Nat) (part : Bytes) : Prop where
  order : requests s.messages = done ++ s.worker.item ++ s.responser.dataQueue
  asked : s.asked = done.map Prod.fst ++ s.worker.asking
  le : n ≤ done.length
  sent : s.sent = client.sent ++ wire.encodeAll (replies f 0 (done.take n)) ++ part
  good : ∀ i r, (done.take n)[i]? = some r → ¬ Fails f i r
  next : part ≠ [] → ∃ r, done[n]? = some r ∧ PartOfReply f n r part
  up : s.writable → n = done.length ∧ part = []
  owes : Owes f done.length s.worker

variable {done : List (PyStr × PyStr)} {n : Nat} {part : Bytes}

theorem account_start (f : Nat → Handler) (client : TcpClient) : Account f client (start client) [] 0 [] where
  order := rfl
  asked := rfl
  le := Nat.le_refl 0
  sent := by simp [start, ResponserThreads.sent, replies]
  good := by simp
  next h := absurd rfl h
  up _ := ⟨rfl, rfl⟩
  owes := trivial

/-- The worker goes on with the same request in hand, or with none. -/
theorem Account.move (hI : Account f client s done n part) (w : Worker) (ps : List PyStr)
    (hitem : w.item = s.worker.item) (hask : s.worker.asking ++ ps = w.asking)
    (hup : w.bytes ≠ [] → s.connected = true) (howes : Owes f done.length w) :
    Account f client { s with worker := w, asked := s.asked ++ ps } done n part :=
  { hI with
    order := by
      have := hI.order
      rwa [← hitem] at this
    asked := by
      show s.asked ++ ps = done.map Prod.fst ++ w.asking
      rw [hI.asked, List.append_assoc, hask]
    up := fun h => hI.up (.inl (h.elim id hup))
    owes := howes }

theorem Account.owes_of (hI : Account f client s done n part) {w : Worker} (hw : s.worker = w) : Owes f done.length w :=
  hw ▸ hI.owes

theorem Account.writable_of (hI : Account f client s done n part) {payload key : PyStr} {bytes : Bytes}
    (hw : s.worker = .sending payload key bytes) : s.writable := by
  obtain ⟨m, -, rfl⟩ := hI.owes_of hw
  refine .inr ?_
  rw [hw]
  simp [Worker.bytes, frame, MAGIC]

/-- The worker is through with the request in hand; `c` is its client then. -/
theorem Account.serve (hI : Account f client s done n part) (c : TcpClient) (n' : Nat) (part' : Bytes)
    {payload key : PyStr} (ps : List PyStr) (hitem : s.worker.item = [(payload, key)])
    (hask : s.worker.asking ++ ps = [payload]) (hle : n' ≤ done.length + 1)
    (hsent : c.sent = client.sent ++ wire.encodeAll (replies f 0 ((done ++ [(payload, key)]).take n')) ++ part')
    (hgood : ∀ i r, ((done ++ [(payload, key)]).take n')[i]? = some r → ¬ Fails f i r)
    (hnext : part' ≠ [] → ∃ r, (done ++ [(payload, key)])[n']? = some r ∧ PartOfReply f n' r part')
    (hup : c.connected = true → n' = done.length + 1 ∧ part' = []) :
    Account f client { s with
      responser := { s.responser with KLresponser := c }, worker := .loop, asked := s.asked ++ ps }
      (done ++ [(payload, key)]) n' part' where
  order := by
    have := hI.order
    rw [hitem] at this
    rw [this]
    simp [Worker.item]
  asked := by
    show s.asked ++ ps = (done ++ [(payload, key)]).map Prod.fst ++ []
    rw [hI.asked, List.append_assoc, hask]
    simp
  le := by simpa using hle
  sent := hsent
  good := hgood
  next := hnext
  up h := by simpa using hup (h.resolve_right (· rfl))
  owes := trivial

/-- What was made of the request in hand is on the wire. -/
theorem Account.serve_sent (hI : Account f client s done n part) (hopen : s.writable) {payload key : PyStr}
    (ps : List PyStr) {ms : List Bytes} (hitem : s.worker.item = [(payload, key)])
    (hask : s.worker.asking ++ ps = [payload]) (hout : outcome (f done.length payload) key = some ms) :
    Account f client { s with
      responser := { s.responser with
        KLresponser := { s.responser.KLresponser with sent := s.responser.KLresponser.sent ++ wire.encodeAll ms } }
      worker := .loop
      asked := s.asked ++ ps } (done ++ [(payload, key)]) (done.length + 1) [] := by
  obtain ⟨rfl, rfl⟩ := hI.up hopen
  have hall : (done ++ [(payload, key)]).take (done.length + 1) = done ++ [(payload, key)] :=
    List.take_of_length_le (by simp)
  refine hI.serve _ _ [] ps hitem hask (Nat.le_refl _) ?_ ?_ (fun h => absurd rfl h) fun _ => ⟨rfl, rfl⟩
  · have hsent := hI.sent
    rw [List.take_length, List.append_nil] at hsent
    have hreplies : replies f 0 (done ++ [(payload, key)]) = replies f 0 done ++ ms := by
      rw [replies_append, Nat.zero_add]
      simp [replies, hout]
    rw [hall, hreplies, Codec.encodeAll_append, List.append_nil, ← List.append_assoc, ← hsent]
    rfl
  · intro i r hi
    rw [hall] at hi
    rcases getElem?_concat_iff.1 hi with ⟨rfl, rfl⟩ | hi
    · unfold Fails
      rw [hout]
      exact Option.some_ne_none ms
    · exact hI.good i r (by rwa [List.take_length])

/-- The client is not connected: the wire stays as it is. -/
theorem Account.serve_lost (hI : Account f client s done n part) (hc : s.connected = false) {payload key : PyStr}
    (ps : List PyStr) (hitem : s.worker.item = [(payload, key)]) (hask : s.worker.asking ++ ps = [payload]) :
    Account f client { s with worker := .loop, asked := s.asked ++ ps } (done ++ [(payload, key)]) n part := by
  have htake : (done ++ [(payload, key)]).take n = done.take n := List.take_append_of_le_length hI.le
  refine hI.serve s.responser.KLresponser n part ps hitem hask (Nat.le_succ_of_le hI.le) ?_ ?_ (fun hp => ?_)
    fun hup => ?_
  · rw [htake]
    exact hI.sent
  · rw [htake]
    exact hI.good
  · obtain ⟨r, hr, hpart⟩ := hI.next hp
    exact ⟨r, by rw [List.getElem?_append_left (List.getElem?_eq_some_iff.1 hr).1]; exact hr, hpart⟩
  · exact absurd (hup.symm.trans hc) nofun

/-- `sendall` fails: part of the reply is on the wire. -/
theorem Account.serve_failed (hI : Account f client s done n part) {payload key : PyStr} {bytes : Bytes}
    (hw : s.worker = .sending payload key bytes) (k : Nat) :
    Account f client { s with
      responser := { s.responser with
        KLresponser := { s.responser.KLresponser with
          sent := s.responser.KLresponser.sent ++ bytes.take k, connected := false } }
      worker := .loop } (done ++ [(payload, key)]) done.length (bytes.take k) := by
  obtain ⟨m, hout, rfl⟩ := hI.owes_of hw
  obtain ⟨rfl, rfl⟩ := hI.up (hI.writable_of hw)
  have htake : (done ++ [(payload, key)]).take done.length = done := List.take_left
  have hsent := hI.sent
  rw [List.take_length, List.append_nil] at hsent
  have hitem : s.worker.item = [(payload, key)] := by rw [hw]; rfl
  have hserve := hI.serve { s.responser.KLresponser with
      sent := s.responser.KLresponser.sent ++ (frame m).take k, connected := false }
    done.length ((frame m).take k) [] hitem (by rw [hw]; rfl) (Nat.le_succ _) ?_ ?_
    (fun _ => ⟨(payload, key), by simp, m, hout, List.take_prefix _ _⟩) nofun
  · simpa using hserve
  · rw [htake, ← hsent]
    rfl
  · rw [htake]
    intro i r hi
    exact hI.good i r (by rwa [List.take_length])

theorem account_step (hI : Account f client s done n part) (h : step (some f) s a = some u) :
    ∃ done' n' part', Account f client u done' n' part' := by
  have hlen : s.worker.asking = [] → s.asked.length = done.length := by
    intro hask
    rw [hI.asked, hask]
    simp
  cases step_cases h with
  | recv data =>
    refine ⟨done, n, part, { hI with order := ?_ }⟩
    have := hI.order
    simp only [ResponserThreads.requests] at this ⊢
    rw [List.filterMap_append, this]
    cases hr : request? data <;> simp [hr]
  | entered hw hc =>
    have := hI.move .getting [] (by rw [hw]; rfl) (by rw [hw]; rfl) (absurd rfl) trivial
    exact ⟨done, n, part, by simpa using this⟩
  | left hw hc =>
    have := hI.move .ended [] (by rw [hw]; rfl) (by rw [hw]; rfl) (absurd rfl) trivial
    exact ⟨done, n, part, by simpa using this⟩
  | took hw hq =>
    have hreq := hI.order
    have hasked := hI.asked
    rw [hw, hq] at hreq
    rw [hw] at hasked
    exact ⟨done, n, part, { hI with
      order := by simpa [Worker.item] using hreq, asked := hasked, owes := trivial
      up := fun h => hI.up (.inl (h.resolve_right (absurd rfl))) }⟩
  | empty hw hq =>
    have := hI.move .loop [] (by rw [hw]; rfl) (by rw [hw]; rfl) (absurd rfl) trivial
    exact ⟨done, n, part, by simpa using this⟩
  | unheard hw hf => cases hf
  | @silent payload key f' hw hf hr =>
    cases hf
    rw [hlen (by rw [hw]; rfl)] at hr
    cases hc : s.connected with
    | true =>
      have := hI.serve_sent (.inl hc) [payload] (by rw [hw]; rfl) (by rw [hw]; rfl)
        (show outcome _ key = some [] by rw [hr]; rfl)
      exact ⟨_, _, _, by simpa using this⟩
    | false =>
      have hitem : s.worker.item = [(payload, key)] := by rw [hw]; rfl
      exact ⟨_, _, _, hI.serve_lost hc [payload] hitem (by rw [hw]; rfl)⟩
  | answered hw hf hr =>
    cases hf
    rw [hlen (by rw [hw]; rfl)] at hr
    exact ⟨done, n, part, hI.move _ _ (by rw [hw]; rfl) (by rw [hw]; rfl) (absurd rfl) hr⟩
  | failed hw hf hr => exact ⟨done, n, part, hI.move _ _ (by rw [hw]; rfl) (by rw [hw]; rfl) (absurd rfl) trivial⟩
  | @refused payload key response hw hm =>
    have := hI.move (.dead payload key) [] (by rw [hw]; rfl) (by rw [hw]; rfl) (absurd rfl) trivial
    exact ⟨_, _, _, by simpa using this⟩
  | skipped hw hc =>
    have := hI.serve_lost hc [] (by rw [hw]; rfl) (by rw [hw]; rfl)
    exact ⟨_, _, _, by simpa using this⟩
  | @passed payload key response m hw hc hm =>
    have hr : f done.length payload = .str response := hI.owes_of hw
    have := hI.move (.sending payload key (frame m)) [] (by rw [hw]; rfl) (by rw [hw]; rfl) (fun _ => hc)
      ⟨m, by rw [hr, outcome, hm]; rfl, rfl⟩
    exact ⟨_, _, _, by simpa using this⟩
  | @sent payload key bytes hw =>
    obtain ⟨m, hout, rfl⟩ := hI.owes_of hw
    have := hI.serve_sent (hI.writable_of hw) [] (by rw [hw]; rfl) (by rw [hw]; rfl) hout
    exact ⟨_, _, _, by simpa [wire] using this⟩
  | cut hw k => exact ⟨_, _, _, hI.serve_failed hw k⟩
  | lose => exact ⟨done, n, part, { hI with up := fun h => hI.up (.inr (h.resolve_left Bool.false_ne_true)) }⟩

/-- **Whatever happens, the wire has the replies to the first requests.** -/
theorem account_run {as : List ResponserAct} (h : (system (some f)).Runs (fun _ _ => True) (start client) as s) :
    ∃ done n part, Account f client s done n part := by
  apply h.invariant (I := fun s => ∃ done n part, Account f client s done n part)
  · rintro s a u ⟨done, n, part, hI⟩ - hstep
    exact account_step hI hstep
  · exact ⟨[], 0, [], account_start f client⟩

/-! ## Once the client is not connected -/

/-- Steps of the worker. -/
def own : ResponserAct → Bool
  | .check | .get | .empty | .handle | .answer | .sendall _ => true
  | .recv _ | .lose => false

/-- Steps the worker has left once the client is not connected. -/
def ownLeft (s : ResponserThreads) : Nat :=
  match s.worker with
  | .getting => 4
  | .handling _ _ => 3
  | .answering _ _ _ | .sending _ _ _ => 2
  | .loop => 1
  | .ended | .dead _ _ => 0

/-- Calls of the handler that are left then. -/
def callsLeft (s : ResponserThreads) : Nat :=
  match s.worker with
  | .getting | .handling _ _ => 1
  | .answering _ _ _ | .sending _ _ _ | .loop | .ended | .dead _ _ => 0

/-- What a step does when the client is not connected. -/
theorem lost_step (hc : s.connected = false) (h : step (some f) s a = some u) :
    u.connected = false ∧ (∃ part, u.sent = s.sent ++ part ∧ part ++ u.worker.bytes <+: s.worker.bytes) ∧
      ownLeft u + (own a).toNat ≤ ownLeft s ∧ u.asked.length + callsLeft u ≤ s.asked.length + callsLeft s := by
  have hsame {w : Worker} (hw : w.bytes = []) :
      ∃ part, s.sent = s.sent ++ part ∧ part ++ w.bytes <+: s.worker.bytes :=
    ⟨[], by simp, by rw [hw]; exact List.nil_prefix⟩
  cases step_cases h with
  | recv data => exact ⟨hc, ⟨[], by simp [ResponserThreads.sent], List.prefix_rfl⟩, Nat.le_refl _, Nat.le_refl _⟩
  | entered hw hup => exact absurd (hup.symm.trans hc) nofun
  | left hw _ => exact ⟨hc, hsame rfl, by simp [ownLeft, own, hw], by simp [callsLeft]⟩
  | took hw hq => exact ⟨hc, hsame rfl, by simp [ownLeft, own, hw], by simp [callsLeft, hw]⟩
  | empty hw hq => exact ⟨hc, hsame rfl, by simp [ownLeft, own, hw], by simp [callsLeft]⟩
  | unheard hw hf => cases hf
  | silent hw hf hr => exact ⟨hc, hsame rfl, by simp [ownLeft, own, hw], by simp [callsLeft, hw]⟩
  | answered hw hf hr => exact ⟨hc, hsame rfl, by simp [ownLeft, own, hw], by simp [callsLeft, hw]⟩
  | failed hw hf hr => exact ⟨hc, hsame rfl, by simp [ownLeft, own, hw], by simp [callsLeft, hw]⟩
  | refused hw hm => exact ⟨hc, hsame rfl, by simp [ownLeft, own, hw], by simp [callsLeft]⟩
  | skipped hw _ => exact ⟨hc, hsame rfl, by simp [ownLeft, own, hw], by simp [callsLeft]⟩
  | passed hw hup hm => exact absurd (hup.symm.trans hc) nofun
  | @sent payload key bytes hw =>
    refine ⟨hc, ⟨bytes, rfl, ?_⟩, by simp [ownLeft, own, hw], by simp [callsLeft]⟩
    simp [hw, Worker.bytes]
  | @cut payload key bytes hw k =>
    refine ⟨rfl, ⟨bytes.take k, rfl, ?_⟩, by simp [ownLeft, own, hw], by simp [callsLeft]⟩
    simp [hw, Worker.bytes, List.take_prefix]
  | lose => exact ⟨rfl, ⟨[], by simp [ResponserThreads.sent], List.prefix_rfl⟩, Nat.le_refl _, Nat.le_refl _⟩

/-- The worker's thread is over. -/
def Over (s : ResponserThreads) : Prop := s.worker = .ended ∨ ∃ payload key, s.worker = .dead payload key

/-- The worker always has a step. -/
theorem exists_own_step (f : Nat → Handler) (s : ResponserThreads) :
    Over s ∨ ∃ a u, own a = true ∧ step (some f) s a = some u := by
  obtain ⟨⟨c, queue⟩, w, messages, asked⟩ := s
  cases w with
  | loop => exact .inr ⟨.check, _, rfl, rfl⟩
  | getting =>
    cases queue with
    | nil => exact .inr ⟨.empty, _, rfl, rfl⟩
    | cons r rest => exact .inr ⟨.get, _, rfl, rfl⟩
  | handling payload key => exact .inr ⟨.handle, _, rfl, rfl⟩
  | answering payload key response => exact .inr ⟨.answer, _, rfl, rfl⟩
  | sending payload key bytes => exact .inr ⟨.sendall .ok, _, rfl, rfl⟩
  | ended => exact .inl (.inl rfl)
  | dead payload key => exact .inl (.inr ⟨payload, key, rfl⟩)

theorem lost_run {bs : List ResponserAct} (hc : s.connected = false)
    (h : (system (some f)).Runs (fun _ _ => True) s bs t) :
    (∃ part, part <+: s.worker.bytes ∧ t.sent = s.sent ++ part) ∧ t.asked.length ≤ s.asked.length + 1 ∧
      bs.countP own ≤ 4 := by
  have hinv : t.connected = false ∧ (∃ part, t.sent = s.sent ++ part ∧ part ++ t.worker.bytes <+: s.worker.bytes) ∧
      t.asked.length + callsLeft t ≤ s.asked.length + callsLeft s := by
    apply h.invariant (I := fun t => t.connected = false ∧
      (∃ part, t.sent = s.sent ++ part ∧ part ++ t.worker.bytes <+: s.worker.bytes) ∧
      t.asked.length + callsLeft t ≤ s.asked.length + callsLeft s)
    · rintro v a u ⟨hv, ⟨part, hsent, hpart⟩, hcalls⟩ - hstep
      obtain ⟨hu, ⟨more, hsent', hmore⟩, -, hcalls'⟩ := lost_step hv hstep
      refine ⟨hu, ⟨part ++ more, ?_, ?_⟩, Nat.le_trans hcalls' hcalls⟩
      · rw [hsent', hsent, List.append_assoc]
      · rw [List.append_assoc]
        exact ((List.prefix_append_right_inj part).2 hmore).trans hpart
    · exact ⟨hc, ⟨[], by simp, List.prefix_rfl⟩, Nat.le_refl _⟩
  have hown : bs.countP own + ownLeft t ≤ ownLeft s := by
    apply h.countP_le (I := fun t => t.connected = false)
    · intro v a u hv _ hstep
      obtain ⟨hu, -, hle, -⟩ := lost_step hv hstep
      exact ⟨hu, hle⟩
    · exact hc
  have hfour : ownLeft s ≤ 4 := by
    unfold ownLeft
    split <;> omega
  have hone : callsLeft s ≤ 1 := by
    unfold callsLeft
    split <;> omega
  obtain ⟨-, ⟨part, hsent, hpart⟩, hcalls⟩ := hinv
  exact ⟨⟨part, (List.prefix_append _ _).trans hpart, hsent⟩, by omega, by omega⟩

theorem exists_over (hc : s.connected = false) :
    ∃ bs t, (system (some f)).Runs (fun _ a => own a = true) s bs t ∧ Over t := by
  have hstep : ∀ v, v.connected = false → Over v ∨ ∃ a u, own a = true ∧ (system (some f)).step v a = some u ∧
      u.connected = false ∧ ownLeft u < ownLeft v := by
    intro v hv
    rcases exists_own_step f v with hover | ⟨a, u, hown, hst⟩
    · exact .inl hover
    · obtain ⟨hu, -, hle, -⟩ := lost_step hv hst
      rw [hown, Bool.toNat_true] at hle
      exact .inr ⟨a, u, hown, hst, hu, hle⟩
  obtain ⟨bs, t, hrun, -, hover⟩ := System.exists_run_to hstep s hc
  exact ⟨bs, t, hrun, hover⟩

/-! ## Every run -/

/-- What the handler was asked and what is on the wire. -/
structure Accounted (f : Nat → Handler) (client : TcpClient) (s : ResponserThreads) : Prop where
  /-- The handler was asked the first requests, in order. -/
  asked : s.asked <+: (requests s.messages).map Prod.fst
  /-- The replies to the first `n` of them, none of which failed, are on the wire, and part of the next one at most:
  behind it the client is not connected. -/
  sent : ∃ n part, n ≤ s.asked.length ∧
    s.sent = client.sent ++ wire.encodeAll (replies f 0 ((requests s.messages).take n)) ++ part ∧
    (∀ i r, i < n → (requests s.messages)[i]? = some r → ¬ Fails f i r) ∧
    (part ≠ [] → s.connected = false ∧ ∃ r, (requests s.messages)[n]? = some r ∧ PartOfReply f n r part)

theorem Worker.asking_prefix (w : Worker) : w.asking <+: w.item.map Prod.fst := by
  cases w <;> simp [Worker.asking, Worker.item]

theorem Account.accounted (hI : Account f client s done n part) : Accounted f client s := by
  have htake : (requests s.messages).take n = done.take n := by
    rw [hI.order, List.append_assoc, List.take_append_of_le_length hI.le]
  constructor
  · rw [hI.order, hI.asked, List.map_append, List.map_append, List.append_assoc]
    exact (List.prefix_append_right_inj _).2 ((Worker.asking_prefix _).trans (List.prefix_append _ _))
  · refine ⟨n, part, ?_, by rw [htake]; exact hI.sent, fun i r hi hr => ?_, fun hp => ⟨?_, ?_⟩⟩
    · rw [hI.asked, List.length_append, List.length_map]
      exact Nat.le_add_right_of_le hI.le
    · apply hI.good i r
      rw [← htake, List.getElem?_take_of_lt hi]
      exact hr
    · cases hc : s.connected with
      | false => rfl
      | true => exact absurd (hI.up (.inl hc)).2 hp
    · obtain ⟨r, hr, hpart⟩ := hI.next hp
      refine ⟨r, ?_, hpart⟩
      rw [hI.order, List.append_assoc, List.getElem?_append_left (List.getElem?_eq_some_iff.1 hr).1]
      exact hr

/-- **The responser through the end of its connection**, over every order of the two threads' steps, every loss of the
connection, every failure of `sendall` and every handler. -/
theorem responser_ends {as : List ResponserAct}
    (h : (system (some f)).Runs (fun _ _ => True) (start client) as s) :
    Accounted f client s ∧ (s.connected = false →
      (∀ bs t, (system (some f)).Runs (fun _ _ => True) s bs t →
        (∃ part, part <+: s.worker.bytes ∧ t.sent = s.sent ++ part) ∧ t.asked.length ≤ s.asked.length + 1 ∧
          bs.countP own ≤ 4) ∧
      ∃ bs t, (system (some f)).Runs (fun _ a => own a = true) s bs t ∧ Over t) := by
  obtain ⟨done, n, part, hI⟩ := account_run h
  exact ⟨hI.accounted, fun hc => ⟨fun bs t hrun => lost_run hc hrun, exists_over hc⟩⟩

/-- The connection fails five bytes into the second reply, the third request stays in the queue. -/
def cutRun : List ResponserAct :=
  [.recv (ascii "1&*&a"), .recv (ascii "2&*&b"), .recv (ascii "3&*&c"), .check, .get, .handle, .answer, .sendall .ok,
    .check, .get, .handle, .answer, .sendall (.fails 5)]

theorem responser_ends_cut : ∃ s : ResponserThreads,
    (system (some fun _ payload => .str payload)).Runs (fun _ _ => True) (start .fresh) cutRun s ∧
    s.connected = false ∧ s.sent = frame (ascii "1&*&a") ++ (frame (ascii "2&*&b")).take 5 ∧
    Accounted (fun _ payload => .str payload) .fresh s ∧
    ∃ bs t, (system (some fun _ payload => .str payload)).Runs (fun _ a => own a = true) s bs t ∧ Over t := by
  let echo : Nat → Handler := fun _ payload => .str payload
  obtain ⟨s, hrun, hc, hsent⟩ := (system (some echo)).exists_run (fun _ _ => True) (start .fresh) cutRun
    (fun s => s.connected = false ∧ s.sent = frame (ascii "1&*&a") ++ (frame (ascii "2&*&b")).take 5)
    (by decide +kernel)
  obtain ⟨haccount, hlost⟩ := responser_ends hrun
  exact ⟨s, hrun, hc, hsent, haccount, (hlost hc).2⟩

end KnotLink.Python.ResponserThreads
