import KnotLink.Python.ResponserThreads
/-!
# Which requests the worker answers

On a live connection the worker serves the requests in the order of their arrival, each once, and sends what
the handler makes of it under the request's own key (`replies_in_order`). The requests are those among the messages
that the receive thread was given in the run (`messages_run`). A request that makes the handler or
`sendBack` raise is the last one it serves (`served_iff`).
-/
namespace KnotLink.Python.ResponserThreads
open Lib

/-- The payload and key of every request among the messages, in order. -/
def requests (messages : List Bytes) : List (PyStr × PyStr) := messages.filterMap request?

/-- As the `n`-th one the handler is asked, the request ends the worker. -/
def Fails (f : Nat → Handler) (n : Nat) (r : PyStr × PyStr) : Prop := outcome (f n r.1) r.2 = none

/-- What is sent for the requests, of which the first is the `n`-th. -/
def replies (f : Nat → Handler) (n : Nat) : List (PyStr × PyStr) → List Bytes
  | [] => []
  | r :: rs => (outcome (f n r.1) r.2).getD [] ++ replies f (n + 1) rs

/-- What the worker sends for the request in hand is what the handler made of it, which was the `n`-th one. -/
def Owes (f : Nat → Handler) (n : Nat) : Worker → Prop
  | .answering payload _ response => f n payload = .str response
  | .sending payload key bytes => ∃ m, outcome (f n payload) key = some [m] ∧ bytes = frame m
  | .loop | .getting | .handling _ _ | .ended | .dead _ _ => True

/-- The queue is empty and no request is in hand. -/
def Drained (s : ResponserThreads) : Prop := s.responser.dataQueue = [] ∧ s.worker.item = []

instance (s : ResponserThreads) : Decidable (Drained s) := inferInstanceAs (Decidable (_ ∧ _))

variable {f : Nat → Handler} {client : TcpClient} {s u : ResponserThreads} {a : ResponserAct}

/-- The messages kept are those the receive thread was given in the run. -/
theorem messages_run {recvFunc : Option (Nat → Handler)} {ok : ResponserThreads → ResponserAct → Prop}
    {as : List ResponserAct} (h : (system recvFunc).Runs ok (start client) as s) :
    s.messages = as.filterMap ResponserAct.data? := by
  apply h.history (I := fun as s => s.messages = as.filterMap ResponserAct.data?)
  · intro bs s a u hI _ hstep
    rw [List.filterMap_append, ← hI]
    cases step_cases hstep <;> simp [ResponserAct.data?]
  · rfl

theorem replies_append (f : Nat → Handler) (n : Nat) (rs qs : List (PyStr × PyStr)) :
    replies f n (rs ++ qs) = replies f n rs ++ replies f (n + rs.length) qs := by
  induction rs generalizing n with
  | nil => rfl
  | cons r rs ih =>
    rw [List.cons_append, replies, ih, replies, List.append_assoc, List.length_cons]
    congr 3
    omega

/-! ## One request after the other -/

/-- The requests are those done, the one in hand and those in the queue; of those done none failed and all
answers are on the wire. -/
structure Progress (f : Nat → Handler) (client : TcpClient) (s : ResponserThreads) (done : List (PyStr × PyStr)) :
    Prop where
  connected : s.responser.KLresponser.connected = true
  running : s.worker ≠ .ended
  order : requests s.messages = done ++ s.worker.item ++ s.responser.dataQueue
  asked : s.asked = done.map Prod.fst ++ s.worker.asking
  sent : s.responser.KLresponser.sent = client.sent ++ wire.encodeAll (replies f 0 done)
  good : ∀ i r, done[i]? = some r → ¬ Fails f i r
  owes : Owes f done.length s.worker
  dead : ∀ payload key, s.worker = .dead payload key → Fails f done.length (payload, key)

/-- The worker goes on with the same request in hand, or with none. -/
theorem Progress.move {done : List (PyStr × PyStr)} (hI : Progress f client s done) (w : Worker) (ps : List PyStr)
    (hitem : w.item = s.worker.item) (hask : s.worker.asking ++ ps = w.asking) (hrun : w ≠ .ended)
    (howes : Owes f done.length w)
    (hdead : ∀ payload key, w = .dead payload key → Fails f done.length (payload, key)) :
    Progress f client { s with worker := w, asked := s.asked ++ ps } done :=
  { hI with
    running := hrun
    order := by
      have := hI.order
      rwa [← hitem] at this
    asked := by
      show s.asked ++ ps = done.map Prod.fst ++ w.asking
      rw [hI.asked, List.append_assoc, hask]
    owes := howes
    dead := hdead }

theorem Progress.owes_of {done : List (PyStr × PyStr)} {w : Worker} (hI : Progress f client s done) (hw : s.worker = w) :
    Owes f done.length w := hw ▸ hI.owes

/-- The worker is through with the request in hand and has sent `ms` for it. -/
theorem Progress.serve {done : List (PyStr × PyStr)} (hI : Progress f client s done) {payload key : PyStr}
    (ps : List PyStr) {ms : List Bytes} (hitem : s.worker.item = [(payload, key)])
    (hask : s.worker.asking ++ ps = [payload]) (hout : outcome (f done.length payload) key = some ms) :
    Progress f client { s with
      responser := { s.responser with
        KLresponser := { s.responser.KLresponser with sent := s.responser.KLresponser.sent ++ wire.encodeAll ms } }
      worker := .loop
      asked := s.asked ++ ps } (done ++ [(payload, key)]) where
  connected := hI.connected
  running := nofun
  order := by
    have := hI.order
    rw [hitem] at this
    rw [this]
    simp [Worker.item]
  asked := by
    show s.asked ++ ps = (done ++ [(payload, key)]).map Prod.fst ++ []
    rw [hI.asked, List.append_assoc, hask]
    simp
  sent := by
    rw [replies_append, Nat.zero_add, hI.sent]
    simp [replies, hout]
  good := by
    intro i r hi
    rcases getElem?_concat_iff.1 hi with ⟨rfl, rfl⟩ | hi
    · unfold Fails
      rw [hout]
      nofun
    · exact hI.good i r hi
  owes := trivial
  dead := nofun

theorem progress_step {done : List (PyStr × PyStr)} (hI : Progress f client s done) (hlive : Live s a)
    (h : step (some f) s a = some u) : ∃ done', Progress f client u done' := by
  have hlen : s.worker.asking = [] → s.asked.length = done.length := by
    intro hask
    rw [hI.asked, hask]
    simp
  cases step_cases h with
  | recv data =>
    refine ⟨done, { hI with order := ?_ }⟩
    have := hI.order
    simp only [ResponserThreads.requests] at this ⊢
    rw [List.filterMap_append, this]
    cases hr : request? data <;> simp [hr]
  | entered hw hc =>
    have := hI.move .getting [] (by rw [hw]; rfl) (by rw [hw]; rfl) nofun trivial nofun
    exact ⟨done, by simpa using this⟩
  | left hw hc => simp [hI.connected] at hc
  | took hw hq =>
    have hreq := hI.order
    have hasked := hI.asked
    rw [hw, hq] at hreq
    rw [hw] at hasked
    exact ⟨done, { hI with
      running := nofun, order := by simpa [Worker.item] using hreq, asked := hasked, owes := trivial, dead := nofun }⟩
  | empty hw hq =>
    have := hI.move .loop [] (by rw [hw]; rfl) (by rw [hw]; rfl) nofun trivial nofun
    exact ⟨done, by simpa using this⟩
  | unheard hw hf => cases hf
  | @silent payload key f' hw hf hr =>
    cases hf
    rw [hlen (by rw [hw]; rfl)] at hr
    have := hI.serve [payload] (by rw [hw]; rfl) (by rw [hw]; rfl) (show outcome _ key = some [] by rw [hr]; rfl)
    exact ⟨_, by simpa using this⟩
  | answered hw hf hr =>
    cases hf
    rw [hlen (by rw [hw]; rfl)] at hr
    exact ⟨done, hI.move _ _ (by rw [hw]; rfl) (by rw [hw]; rfl) nofun hr nofun⟩
  | failed hw hf hr =>
    cases hf
    rw [hlen (by rw [hw]; rfl)] at hr
    refine ⟨done, hI.move _ _ (by rw [hw]; rfl) (by rw [hw]; rfl) nofun trivial ?_⟩
    rintro _ _ ⟨⟩
    rcases hr with hr | hr <;> simp [Fails, outcome, hr]
  | @refused payload key response hw hm =>
    have hr : f done.length payload = .str response := hI.owes_of hw
    have := hI.move (.dead payload key) [] (by rw [hw]; rfl) (by rw [hw]; rfl) nofun trivial
      (by rintro _ _ ⟨⟩; simp [Fails, outcome, hr, hm])
    exact ⟨done, by simpa using this⟩
  | skipped hw hc => simp [hI.connected] at hc
  | @passed payload key response m hw hc hm =>
    have hr : f done.length payload = .str response := hI.owes_of hw
    have := hI.move (.sending payload key (frame m)) [] (by rw [hw]; rfl) (by rw [hw]; rfl) nofun
      ⟨m, by rw [hr, outcome, hm]; rfl, rfl⟩ nofun
    exact ⟨done, by simpa using this⟩
  | @sent payload key bytes hw =>
    obtain ⟨m, hout, rfl⟩ := hI.owes_of hw
    have := hI.serve [] (by rw [hw]; rfl) (by rw [hw]; rfl) hout
    exact ⟨_, by simpa [wire] using this⟩
  | cut hw n => cases hlive
  | lose => exact hlive.elim

theorem exists_progress {as : List ResponserAct} (hc : client.connected = true)
    (h : (system (some f)).Runs Live (start client) as s) : ∃ done, Progress f client s done := by
  apply h.invariant (I := fun s => ∃ done, Progress f client s done)
  · rintro s a u ⟨done, hI⟩ hlive hstep
    exact progress_step hI hlive hstep
  · exact ⟨[], hc, nofun, rfl, rfl, by simp [start, replies], by simp, trivial, nofun⟩

/-! ## The worker gets through its queue -/

/-- The worker has no more to do: all requests are served, or it is dead. -/
def Finished (s : ResponserThreads) : Prop := Drained s ∨ ∃ payload key, s.worker = .dead payload key

/-- Steps left at most. -/
def stepsLeft (s : ResponserThreads) : Nat :=
  6 * s.responser.dataQueue.length +
    match s.worker with
    | .handling _ _ => 5
    | .answering _ _ _ => 4
    | .sending _ _ _ => 3
    | .loop => 2
    | .getting => 1
    | .ended => 0
    | .dead _ _ => 0

/-- Nothing that waits for a request stays undone: the worker's own steps lead to the end of its work. -/
theorem exists_finished {done : List (PyStr × PyStr)} (hI : Progress f client s done) :
    ∃ as t, (system (some f)).Runs Live s as t ∧ t.messages = s.messages ∧ Finished t := by
  let I (t : ResponserThreads) := t.responser.KLresponser.connected = true ∧ t.worker ≠ .ended ∧ t.messages = s.messages
  have hstep : ∀ t, I t → Finished t ∨
      ∃ a u, Live t a ∧ (system (some f)).step t a = some u ∧ I u ∧ stepsLeft u < stepsLeft t := by
    rintro ⟨⟨c, queue⟩, w, messages, asked⟩ ⟨(hc : c.connected = true), hw, hmsg⟩
    cases w with
    | loop =>
      cases queue with
      | nil => exact .inl (.inl ⟨rfl, rfl⟩)
      | cons r rest =>
        refine .inr ⟨.check, ⟨⟨c, r :: rest⟩, .getting, messages, asked⟩, trivial, ?_, ⟨hc, by simp, hmsg⟩, ?_⟩
        · simp [system, step, hc]
        · simp [stepsLeft]
    | getting =>
      cases queue with
      | nil => exact .inl (.inl ⟨rfl, rfl⟩)
      | cons r rest =>
        refine .inr ⟨.get, _, trivial, rfl, ⟨hc, by simp, hmsg⟩, ?_⟩
        simp only [stepsLeft, List.length_cons]
        omega
    | handling payload key =>
      refine .inr ⟨.handle, _, trivial, rfl, ⟨hc, ?_, hmsg⟩, ?_⟩
      · cases f asked.length payload <;> simp
      · cases f asked.length payload <;> simp [stepsLeft]
    | answering payload key response =>
      let t : ResponserThreads := ⟨⟨c, queue⟩, .answering payload key response, messages, asked⟩
      rcases t.enter_cases payload key response with ⟨-, he⟩ | ⟨hlost, -⟩ | ⟨-, m, -, he⟩
      · refine .inr ⟨.answer, { t with worker := .dead payload key }, trivial, ?_, ⟨hc, by simp, hmsg⟩, ?_⟩
        · rw [← he]
          rfl
        · simp [stepsLeft, t]
      · exact absurd (hlost.symm.trans hc) (by simp)
      · refine .inr ⟨.answer, { t with worker := .sending payload key (frame m) }, trivial, ?_, ⟨hc, by simp, hmsg⟩, ?_⟩
        · rw [← he]
          rfl
        · simp [stepsLeft, t]
    | sending payload key bytes =>
      refine .inr ⟨.sendall .ok, _, rfl, rfl, ⟨hc, by simp, hmsg⟩, ?_⟩
      simp [stepsLeft]
    | ended => exact absurd rfl hw
    | dead payload key => exact .inl (.inr ⟨payload, key, rfl⟩)
  obtain ⟨as, t, hrun, ⟨-, -, hmsg⟩, hfin⟩ := System.exists_run_to hstep s ⟨hI.connected, hI.running, rfl⟩
  exact ⟨as, t, hrun, hmsg, hfin⟩

/-! ## Every request is answerable -/

/-- The handler's result is `None` or a string whose reply can be sent. -/
def Answerable (result : HandlerResult) (key : PyStr) : Prop :=
  result = .none ∨ ∃ response m, result = .str response ∧ reply? response key = some m

theorem Answerable.outcome_ne {result : HandlerResult} {key : PyStr} (h : Answerable result key) :
    outcome result key ≠ none := by
  rcases h with rfl | ⟨response, m, rfl, hm⟩
  · nofun
  · simp [outcome, hm]

/-- **One reply per request, in order, under the request's own key**, as soon as the queue is drained, which
the worker's own steps bring about. -/
theorem replies_in_order {as : List ResponserAct} (hc : client.connected = true)
    (h : (system (some f)).Runs Live (start client) as s)
    (hf : ∀ i r, (requests s.messages)[i]? = some r → Answerable (f i r.1) r.2) :
    (Drained s → s.responser.KLresponser.sent =
      client.sent ++ wire.encodeAll (replies f 0 (requests s.messages))) ∧
    ∃ bs t, (system (some f)).Runs Live s bs t ∧ t.messages = s.messages ∧ Drained t := by
  obtain ⟨done, hI⟩ := exists_progress hc h
  constructor
  · rintro ⟨hq, hitem⟩
    have hreq := hI.order
    rw [hq, hitem, List.append_nil, List.append_nil] at hreq
    rw [hI.sent, hreq]
  · obtain ⟨bs, t, hrun, hmsg, hfin⟩ := exists_finished hI
    refine ⟨bs, t, hrun, hmsg, ?_⟩
    rcases hfin with hdr | ⟨payload, key, hw⟩
    · exact hdr
    · obtain ⟨done', hI'⟩ := exists_progress hc (h.append hrun)
      have hreq := hI'.order
      rw [hw, hmsg] at hreq
      have hlast : (requests s.messages)[done'.length]? = some (payload, key) := by
        rw [hreq]
        simp [Worker.item]
      exact absurd (hI'.dead _ _ hw) (hf _ _ hlast).outcome_ne

/-- Two requests around a message without a delimiter, the second one while the first is handled. -/
def twoRequests : List ResponserAct :=
  [.recv (ascii "1&*&a"), .check, .get, .recv (ascii "x"), .recv (ascii "2&*&b"), .handle, .answer, .sendall .ok,
    .check, .get, .handle, .answer, .sendall .ok]

/-- An echo answers both. -/
theorem replies_in_order_echo : ∃ s : ResponserThreads,
    (system (some fun _ payload => .str payload)).Runs Live (start .fresh) twoRequests s ∧ Drained s ∧
    requests s.messages = [(str "a", str "1"), (str "b", str "2")] ∧
    (∀ (i : Nat) (r : PyStr × PyStr), (requests s.messages)[i]? = some r → Answerable (.str r.1) r.2) ∧
    s.responser.KLresponser.sent = wire.encodeAll [ascii "1&*&a", ascii "2&*&b"] := by
  let echo : Nat → Handler := fun _ payload => .str payload
  obtain ⟨s, hrun, hdr, hreq⟩ := (system (some echo)).exists_run Live (start .fresh) twoRequests
    (fun s => Drained s ∧ requests s.messages = [(str "a", str "1"), (str "b", str "2")]) (by decide +kernel)
  have hans : ∀ i r, (requests s.messages)[i]? = some r → Answerable (echo i r.1) r.2 := by
    intro i r hi
    rw [hreq] at hi
    rcases i with _ | _ | i
    · cases hi
      exact .inr ⟨str "a", ascii "1&*&a", rfl, by decide⟩
    · cases hi
      exact .inr ⟨str "b", ascii "2&*&b", rfl, by decide⟩
    · simp at hi
  refine ⟨s, hrun, hdr, hreq, hans, ((replies_in_order rfl hrun hans).1 hdr).trans ?_⟩
  rw [hreq]
  decide

/-! ## A request that fails -/

/-- Every request that does not fail was given to the handler, and what it made of it was sent. -/
structure Served (f : Nat → Handler) (client : TcpClient) (s : ResponserThreads) : Prop where
  asked : ∀ i r, (requests s.messages)[i]? = some r → ¬ Fails f i r → s.asked[i]? = some r.1
  sent : s.responser.KLresponser.sent = client.sent ++ wire.encodeAll (replies f 0 (requests s.messages))

theorem replies_of_fails {n : Nat} {rs : List (PyStr × PyStr)}
    (h : ∀ i r, rs[i]? = some r → Fails f (n + i) r) : replies f n rs = [] := by
  induction rs generalizing n with
  | nil => rfl
  | cons r rs ih =>
    have hr : outcome (f n r.1) r.2 = none := h 0 r rfl
    have hrs : replies f (n + 1) rs = [] := by
      apply ih
      intro i q hi
      have := h (i + 1) q hi
      rwa [show n + (i + 1) = n + 1 + i by omega] at this
    rw [replies, hr, hrs]
    rfl

theorem Progress.served_of_drained {done : List (PyStr × PyStr)} (hI : Progress f client s done) (hdr : Drained s) :
    Served f client s ∧ ∀ i r, (requests s.messages)[i]? = some r → ¬ Fails f i r := by
  obtain ⟨hq, hitem⟩ := hdr
  have hreq := hI.order
  rw [hq, hitem, List.append_nil, List.append_nil] at hreq
  refine ⟨⟨?_, by rw [hI.sent, hreq]⟩, fun i r hi => hI.good i r (hreq ▸ hi)⟩
  intro i r hi _
  rw [hreq] at hi
  have hlt : i < done.length := (List.getElem?_eq_some_iff.1 hi).1
  rw [hI.asked, List.getElem?_append_left (by simpa using hlt), List.getElem?_map, hi]
  rfl

/-- A dead worker was given no request behind the failing one. -/
theorem Progress.served_of_dead {done : List (PyStr × PyStr)} (hI : Progress f client s done) {payload key : PyStr}
    (hw : s.worker = .dead payload key) :
    Served f client s ↔ ∀ j q, done.length < j → (requests s.messages)[j]? = some q → Fails f j q := by
  have hreq := hI.order
  have hasked := hI.asked
  have hdead := hI.dead _ _ hw
  rw [hw, Worker.item, List.append_assoc] at hreq
  rw [hw, Worker.asking] at hasked
  constructor
  · intro hs j q hj hq
    by_contra hgood
    have hlt := (List.getElem?_eq_some_iff.1 (hs.asked j q hq hgood)).1
    rw [hasked, List.length_append, List.length_map, List.length_singleton] at hlt
    omega
  · intro hrest
    have hfail : ∀ i r, ((payload, key) :: s.responser.dataQueue)[i]? = some r → Fails f (done.length + i) r := by
      intro i r hi
      rcases i with _ | i
      · cases hi
        exact hdead
      · apply hrest _ _ (by omega)
        rw [hreq, List.getElem?_append_right (by omega), Nat.add_sub_cancel_left]
        exact hi
    constructor
    · intro i r hi hgood
      rcases Nat.lt_or_ge i done.length with hlt | hge
      · rw [hreq, List.getElem?_append_left hlt] at hi
        rw [hasked, List.getElem?_append_left (by simpa using hlt), List.getElem?_map, hi]
        rfl
      · rw [hreq, List.getElem?_append_right hge] at hi
        have := hfail _ _ hi
        rw [Nat.add_sub_cancel' hge] at this
        exact absurd this hgood
    · rw [hI.sent, hreq, replies_append, Nat.zero_add, List.singleton_append, replies_of_fails hfail, List.append_nil]

/-- **All other requests are served exactly if none of them comes behind a failing one.** -/
theorem served_iff {as : List ResponserAct} (hc : client.connected = true)
    (h : (system (some f)).Runs Live (start client) as s) (hfin : Finished s) :
    Served f client s ↔ ∀ i j r q, i < j → (requests s.messages)[i]? = some r →
      (requests s.messages)[j]? = some q → Fails f i r → Fails f j q := by
  obtain ⟨done, hI⟩ := exists_progress hc h
  rcases hfin with hdr | ⟨payload, key, hw⟩
  · obtain ⟨hserved, hgood⟩ := hI.served_of_drained hdr
    exact iff_of_true hserved fun i _ r _ _ hi _ hfail => absurd hfail (hgood i r hi)
  · have hlast : (requests s.messages)[done.length]? = some (payload, key) := by
      rw [hI.order, hw]
      simp [Worker.item]
    rw [hI.served_of_dead hw]
    constructor
    · intro hrest i j r q hij hi hj hfail
      refine hrest j q (Nat.lt_of_le_of_lt ?_ hij) hj
      by_contra hlt
      -- the requests in front of the failing one are good
      refine hI.good i r ?_ hfail
      rw [hI.order, List.append_assoc, List.getElem?_append_left (by omega)] at hi
      exact hi
    · intro hall j q hj hq
      exact hall _ _ _ _ hj hlast hq (hI.dead _ _ hw)

/-- The second of two requests fails. -/
def lastFails : List ResponserAct :=
  [.recv (ascii "1&*&a"), .check, .get, .handle, .recv (ascii "2&*&b"), .check, .get, .handle]

theorem served_iff_last : ∃ s : ResponserThreads,
    (system (some fun n _ => if n = 1 then .raises else .none)).Runs Live (start .fresh) lastFails s ∧ Finished s ∧
    requests s.messages = [(str "a", str "1"), (str "b", str "2")] ∧
    Served (fun n _ => if n = 1 then .raises else .none) .fresh s := by
  let f : Nat → Handler := fun n _ => if n = 1 then .raises else .none
  obtain ⟨s, hrun, hw, hreq⟩ := (system (some f)).exists_run Live (start .fresh) lastFails
    (fun s => s.worker = .dead (str "b") (str "2") ∧ requests s.messages = [(str "a", str "1"), (str "b", str "2")])
    (by decide +kernel)
  have hfin : Finished s := .inr ⟨_, _, hw⟩
  refine ⟨s, hrun, hfin, hreq, (served_iff rfl hrun hfin).2 ?_⟩
  rw [hreq]
  intro i j r q hij hi hj _
  rcases j with _ | _ | j
  · omega
  · rfl
  · simp at hj

/-- The handler raises once: the next request is never given to it. -/
theorem request_unserved : ∃ (as : List ResponserAct) (s : ResponserThreads),
    (system (some fun n _ => if n = 0 then .raises else .none)).Runs Live (start .fresh) as s ∧
    (∃ payload key, s.worker = .dead payload key) ∧
    requests s.messages = [(str "a", str "1"), (str "b", str "2")] ∧ s.asked = [str "a"] := by
  obtain ⟨s, hrun, hw, hreq, hasked⟩ := (system (some fun n _ => if n = 0 then .raises else .none)).exists_run Live
    (start .fresh) [.recv (ascii "1&*&a"), .recv (ascii "2&*&b"), .check, .get, .handle]
    (fun s => s.worker = .dead (str "a") (str "1") ∧ requests s.messages = [(str "a", str "1"), (str "b", str "2")] ∧
      s.asked = [str "a"]) (by decide +kernel)
  exact ⟨_, s, hrun, ⟨_, _, hw⟩, hreq, hasked⟩

end KnotLink.Python.ResponserThreads
