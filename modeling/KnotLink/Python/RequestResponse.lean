import KnotLink.Python.Querier
import KnotLink.Python.Responser
/-!
# One query from end to end

The querier's message goes through the service to the responser, the worker's answer the same way back.
The service is not part of the SDK: `Service.Routes` is what is assumed of it.

Every stage lets some strings not pass: `encode` refuses surrogates, the responser drops an empty payload,
the querier's parser refuses an empty frame and keeps `heartbeat_response` for itself. For all others the
exchange is transparent (`query_returns_reply_iff`).
-/
namespace KnotLink.Python
open Lib

/-- What the service sends on for a message of the querier, and for one of the responser. -/
structure Service where
  toResponser : Bytes → Bytes
  toQuerier : Bytes → Bytes

/-- The service tells the responser the question's id and gives the querier what is behind it. -/
structure Service.Routes (svc : Service) (routing id : Bytes) : Prop where
  forward : ∀ d, svc.toResponser (routing ++ DELIMITER ++ d) = id ++ DELIMITER ++ d
  back : ∀ r, svc.toQuerier (id ++ DELIMITER ++ r) = r

/-- `chunks` is a cut of `stream` into non-empty chunks. -/
structure Cut (chunks : List Bytes) (stream : Bytes) : Prop where
  flatten : chunks.flatten = stream
  nonempty : ∀ c ∈ chunks, c ≠ []

/-- A live connection on both sides, nothing in flight, a service that routes, a question that encodes and
a handler whose reply to it encodes too; every frame is within the limit. -/
structure Exchange (svc : Service) (a : OpenSocketQuerier) (b : OpenSocketResponser) (f : Handler)
    (id q r : PyStr) (routing idBytes replyBytes : Bytes) : Prop where
  querier_connected : a.KLquerier.connected = true
  querier_buffer : a.KLquerier.buffer = []
  responser_connected : b.KLresponser.connected = true
  responser_buffer : b.KLresponser.buffer = []
  queue : b.dataQueue = []
  routing_bytes : encodeUtf8 (format a.appID ++ str "-" ++ format a.openSocketID) = some routing
  id_bytes : encodeUtf8 id = some idBytes
  key : Key id
  routes : svc.Routes routing idBytes
  reply : f q = .str r
  reply_bytes : encodeUtf8 r = some replyBytes
  question_fits : ∀ d, encodeUtf8 q = some d →
    routing.length + 3 + d.length ≤ MAX_MSG_SIZE ∧ idBytes.length + 3 + d.length ≤ MAX_MSG_SIZE
  reply_fits : idBytes.length + 3 + replyBytes.length ≤ MAX_MSG_SIZE

/-- `query(q)` returns `r`, however the three streams are cut and whenever its chunks arrive: the querier
writes one frame, the worker answers what the service makes of it with one frame, and `query` returns `r`
on what the service makes of that. -/
def Transparent (svc : Service) (a : OpenSocketQuerier) (b : OpenSocketResponser) (f : Handler) (q r : PyStr) :
    Prop :=
  ∃ request, (sendQuery a.appID a.openSocketID a.KLquerier q .ok).1.sent = a.KLquerier.sent ++ frame request ∧
  ∀ down, Cut down (frame (svc.toResponser request)) →
  ∃ reply, ((b.receive down).processQueue (some f) [.ok]).1.KLresponser.sent = b.KLresponser.sent ++ frame reply ∧
  ∀ early late timed, Cut (early ++ late) (frame (svc.toQuerier reply)) →
    (a.query q timed .ok early late).2 = .returned (some r)

/-! ## The querier's message -/

/-- A message with a delimiter is no heartbeat response. -/
theorem isMessage_delimiter (k d : Bytes) : isMessage (k ++ DELIMITER ++ d) = true := by
  have hmem : (0x26 : UInt8) ∈ k ++ DELIMITER ++ d := by
    apply List.mem_append_left
    exact List.mem_append_right _ (by decide)
  simp only [isMessage, decide_eq_true_eq]
  intro h
  rw [h] at hmem
  exact absurd hmem (by decide)

theorem queryMessage_ok {A S : Option PyStr} {q : PyStr} {routing d : Bytes}
    (hr : encodeUtf8 (format A ++ str "-" ++ format S) = some routing) (hq : encodeUtf8 q = some d) :
    queryMessage A S q = .ok (routing ++ DELIMITER ++ d) := by
  rw [queryMessage, hq, encodeUtf8_append hr encodeUtf8_delimiter]

theorem sendQuery_ok {A S : Option PyStr} {c : TcpClient} {q : PyStr} {routing d : Bytes}
    (hr : encodeUtf8 (format A ++ str "-" ++ format S) = some routing) (hq : encodeUtf8 q = some d)
    (hc : c.connected = true) (hlen : routing.length + 3 + d.length ≤ MAX_MSG_SIZE) :
    sendQuery A S c q .ok = ({ c with sent := c.sent ++ frame (routing ++ DELIMITER ++ d) }, .ok ()) := by
  have hfit : (routing ++ DELIMITER ++ d).length ≤ MAX_MSG_SIZE := by
    rw [List.length_append, List.length_append]
    exact hlen
  simp only [sendQuery, queryMessage_ok hr hq, TcpClient.sendData_ok hc hfit]

/-! ## The responser -/

namespace OpenSocketResponser

theorem internalDataRecv_key {s : OpenSocketResponser} {id : PyStr} {idBytes : Bytes} (hk : Key id)
    (hid : encodeUtf8 id = some idBytes) (d : Bytes) :
    s.internalDataRecv (idBytes ++ DELIMITER ++ d) =
      if d = [] then s else { s with dataQueue := s.dataQueue ++ [(decodeUtf8Replace d, id)] } := by
  have hkey : (idBytes ++ DELIMITER ++ d).take idBytes.length = idBytes := by
    rw [List.append_assoc, List.take_left]
  have hpayload : (idBytes ++ DELIMITER ++ d).drop (idBytes.length + 3) = d :=
    List.drop_left' (by simp [DELIMITER, ascii])
  simp only [internalDataRecv, hk.indexOf?_delimiter hid, hkey, hpayload, decodeUtf8_encode hid]

/-- What a request leaves behind when all of its frame has come. -/
theorem receive_request {s : OpenSocketResponser} (hs : s.KLresponser.connected = true)
    (hb : s.KLresponser.buffer = []) {id : PyStr} {idBytes d : Bytes} (hk : Key id)
    (hid : encodeUtf8 id = some idBytes) (hlen : idBytes.length + 3 + d.length ≤ MAX_MSG_SIZE) {chunks : List Bytes}
    (hcut : Cut chunks (frame (idBytes ++ DELIMITER ++ d))) :
    ∃ c : TcpClient, c.connected = true ∧ c.sent = s.KLresponser.sent ∧ s.receive chunks =
      ⟨c, if d = [] then s.dataQueue else s.dataQueue ++ [(decodeUtf8Replace d, id)]⟩ := by
  have hok : ∀ p ∈ [idBytes ++ DELIMITER ++ d], Admissible p := by
    intro p hp
    rw [List.mem_singleton.1 hp]
    simp only [Admissible, List.length_append, show DELIMITER.length = 3 from rfl]
    omega
  obtain ⟨hrec, -, hup⟩ := TcpClient.receiveChunks_frames hs hb hok hcut.nonempty
    (by rw [hcut.flatten]; simp)
  rw [List.filter_cons_of_pos (isMessage_delimiter idBytes d), List.filter_nil] at hrec
  refine ⟨_, hup, TcpClient.receiveChunks_sent chunks s.KLresponser, ?_⟩
  rw [receive_eq hrec]
  simp only [List.foldl_cons, List.foldl_nil, internalDataRecv_key hk hid]
  split <;> rfl

/-- The worker answers the one entry of its queue. -/
theorem processQueue_reply {s : OpenSocketResponser} (hs : s.KLresponser.connected = true) {f : Handler}
    {payload id r : PyStr} {idBytes replyBytes : Bytes} (hq : s.dataQueue = [(payload, id)])
    (hf : f payload = .str r) (hid : encodeUtf8 id = some idBytes) (hr : encodeUtf8 r = some replyBytes)
    (hlen : idBytes.length + 3 + replyBytes.length ≤ MAX_MSG_SIZE) :
    (s.processQueue (some f) [.ok]).1.KLresponser.sent =
      s.KLresponser.sent ++ frame (idBytes ++ DELIMITER ++ replyBytes) := by
  have hfit : (idBytes ++ DELIMITER ++ replyBytes).length ≤ MAX_MSG_SIZE := by
    rw [List.length_append, List.length_append]
    exact hlen
  have hsend := TcpClient.sendData_ok hs hfit
  simp only [processQueue, hs, processTurn, hq, hf, sendBack, encodeUtf8_append hid encodeUtf8_delimiter, hr,
    hsend, if_true]

end OpenSocketResponser

/-! ## The reply -/

namespace OpenSocketQuerier

/-- A message taken for the answer of the call in progress. -/
theorem receive_answer {s : OpenSocketQuerier} (hq : s.shared.isQuerying = true)
    (ht : s.shared.timeoutOccurred = false) {chunks : List Bytes} {m : Bytes}
    (h : (s.KLquerier.receiveChunks (some quiet) chunks).received = s.KLquerier.received ++ [m]) :
    s.receive chunks = { s with
      KLquerier := s.KLquerier.receiveChunks (some quiet) chunks
      shared := { s.shared with queryResult := some (decodeUtf8Replace m), queryEvent := true } } := by
  rw [receive_eq h]
  simp [internalDataRecv, QueryState.recv, hq, ht]

theorem receive_nothing {s : OpenSocketQuerier} {chunks : List Bytes}
    (h : (s.KLquerier.receiveChunks (some quiet) chunks).received = s.KLquerier.received) :
    s.receive chunks = { s with KLquerier := s.KLquerier.receiveChunks (some quiet) chunks } :=
  receive_eq (h.trans (List.append_nil _).symm)

theorem receive_nil (s : OpenSocketQuerier) : s.receive [] = s := by
  simp [receive, TcpClient.receiveChunks, TcpClient.receiveData]

theorem query_sent {s : OpenSocketQuerier} {q : PyStr} {timed : Bool} {net : TcpClient.SendAll} {c : TcpClient}
    (h : sendQuery s.appID s.openSocketID s.KLquerier q net = (c, .ok ())) (early late : List Bytes) :
    s.query q timed net early late =
      let s := receive { s with shared := s.shared.begin, KLquerier := c } early
      if s.shared.queryEvent then s.finish true
      else
        let s := s.receive late
        if s.shared.queryEvent then s.finish true
        else if timed then s.finish false
        else (s, .blocked) := by
  simp only [query, h]

/-- The answer comes before the wait or during it. -/
theorem query_answered {s : OpenSocketQuerier} {q : PyStr} {timed : Bool} {c : TcpClient}
    (h : sendQuery s.appID s.openSocketID s.KLquerier q .ok = (c, .ok ())) (hc : c.connected = true)
    (hb : c.buffer = []) {m : Bytes} (hm : Admissible m) (hmsg : isMessage m = true) {early late : List Bytes}
    (hcut : Cut (early ++ late) (frame m)) :
    (s.query q timed .ok early late).2 = .returned (some (decodeUtf8Replace m)) := by
  rw [query_sent h]
  rcases TcpClient.receiveChunks_message hc hb hm hmsg hcut.nonempty hcut.flatten with h1 | ⟨h1, h2⟩
  · rw [receive_answer rfl rfl h1]
    rfl
  · rw [← h1] at h2
    rw [receive_nothing h1]
    have hlate := receive_answer rfl rfl h2
      (s := { s with shared := s.shared.begin, KLquerier := c.receiveChunks (some quiet) early })
    simp only [hlate]
    rfl

/-- Nothing is delivered, nothing is returned. -/
theorem query_unanswered {s : OpenSocketQuerier} {q : PyStr} {c : TcpClient}
    (h : sendQuery s.appID s.openSocketID s.KLquerier q .ok = (c, .ok ())) {chunks : List Bytes}
    (hrec : (c.receiveChunks (some quiet) chunks).received = c.received) :
    (s.query q false .ok chunks []).2 = .blocked := by
  rw [query_sent h, receive_nothing hrec]
  simp only [receive_nil]
  rfl

end OpenSocketQuerier

/-! ## From end to end -/

/-- The strings every stage lets pass. -/
theorem transparent_of {svc : Service} {a : OpenSocketQuerier} {b : OpenSocketResponser} {f : Handler}
    {id q r : PyStr} {routing idBytes questionBytes replyBytes : Bytes}
    (h : Exchange svc a b f id q r routing idBytes replyBytes) (hq : encodeUtf8 q = some questionBytes)
    (hq0 : q ≠ []) (hr0 : r ≠ []) (hr1 : r ≠ str "heartbeat_response") : Transparent svc a b f q r := by
  obtain ⟨hquestion, hforward⟩ := h.question_fits questionBytes hq
  have hsend := sendQuery_ok h.routing_bytes hq h.querier_connected hquestion
  refine ⟨routing ++ DELIMITER ++ questionBytes, by rw [hsend], ?_⟩
  intro down hdown
  rw [h.routes.forward] at hdown
  obtain ⟨c, hc, hsent, hreceive⟩ := OpenSocketResponser.receive_request h.responser_connected h.responser_buffer
    h.key h.id_bytes hforward hdown
  have hpayload : questionBytes ≠ [] := fun h0 => hq0 ((encodeUtf8_nil_iff hq).1 h0)
  rw [if_neg hpayload, h.queue, decodeUtf8Replace_encode hq, List.nil_append] at hreceive
  refine ⟨idBytes ++ DELIMITER ++ replyBytes, ?_, ?_⟩
  · rw [hreceive, ← hsent]
    exact OpenSocketResponser.processQueue_reply (s := ⟨c, _⟩) hc rfl h.reply h.id_bytes h.reply_bytes h.reply_fits
  · intro early late timed hcut
    rw [h.routes.back] at hcut
    have hne : replyBytes ≠ [] := fun h0 => hr0 ((encodeUtf8_nil_iff h.reply_bytes).1 h0)
    have hadm : Admissible replyBytes := by
      refine ⟨List.length_pos_iff.2 hne, ?_⟩
      have := h.reply_fits
      omega
    have hmsg : isMessage replyBytes = true := by
      simp only [isMessage, decide_eq_true_eq]
      intro hbeat
      have hstr : encodeUtf8 (str "heartbeat_response") = some heartbeatResponse := by decide
      rw [← decodeUtf8Replace_encode h.reply_bytes, hbeat, decodeUtf8Replace_encode hstr] at hr1
      exact hr1 rfl
    rw [OpenSocketQuerier.query_answered hsend h.querier_connected h.querier_buffer hadm hmsg hcut,
      decodeUtf8Replace_encode h.reply_bytes]

/-- A frame that reaches nobody: the receiver delivers nothing of it. -/
theorem received_same {c : TcpClient} (hc : c.connected = true) (hb : c.buffer = []) {m : Bytes}
    (hm : m.length ≤ MAX_MSG_SIZE) (hlost : m = [] ∨ m = heartbeatResponse) :
    (c.receiveChunks (some quiet) [frame m]).received = c.received := by
  have hne : ∀ x ∈ [frame m], x ≠ [] := by
    intro x hx
    rw [List.mem_singleton.1 hx]
    exact frame_ne_nil m
  rcases hlost with rfl | rfl
  · have hbad : wireFront (frame []) = .bad := wireFront_bad.2 ⟨by decide, by decide⟩
    have hsplit : wire.Split [frame []].flatten [] (frame []) := by
      refine ⟨by simp, by simp, ?_⟩
      intro x r hf
      cases hf.symm.trans hbad
    simpa using (TcpClient.receiveChunks_split hc hb hne hsplit).1
  · have hok : ∀ p ∈ [heartbeatResponse], Admissible p := by decide
    have := (TcpClient.receiveChunks_frames hc hb hok hne (by simp)).1
    rwa [show [heartbeatResponse].filter isMessage = [] by decide, List.append_nil] at this

/-- The other strings do not pass. -/
theorem of_transparent {svc : Service} {a : OpenSocketQuerier} {b : OpenSocketResponser} {f : Handler}
    {id q r : PyStr} {routing idBytes replyBytes : Bytes}
    (h : Exchange svc a b f id q r routing idBytes replyBytes) (ht : Transparent svc a b f q r) :
    (encodeUtf8 q).isSome = true ∧ q ≠ [] ∧ r ≠ [] ∧ r ≠ str "heartbeat_response" := by
  obtain ⟨request, hrequest, hdown⟩ := ht
  cases hq : encodeUtf8 q with
  | none =>
    have hraise : sendQuery a.appID a.openSocketID a.KLquerier q .ok = (a.KLquerier, .error .unicodeEncode) := by
      simp only [sendQuery, queryMessage, hq]
    rw [hraise] at hrequest
    exact absurd hrequest (ne_append_frame _ request)
  | some questionBytes =>
    obtain ⟨hquestion, hforward⟩ := h.question_fits questionBytes hq
    have hsend := sendQuery_ok h.routing_bytes hq h.querier_connected hquestion
    obtain rfl : routing ++ DELIMITER ++ questionBytes = request := by
      rw [hsend] at hrequest
      exact frame_injective (List.append_cancel_left hrequest)
    rw [h.routes.forward] at hdown
    have hcut (m : Bytes) : Cut [frame m] (frame m) := by
      refine ⟨by simp, ?_⟩
      intro x hx
      rw [List.mem_singleton.1 hx]
      exact frame_ne_nil m
    obtain ⟨reply, hreply, hup⟩ := hdown _ (hcut _)
    obtain ⟨c, hc, hsent, hreceive⟩ := OpenSocketResponser.receive_request h.responser_connected
      h.responser_buffer h.key h.id_bytes hforward (hcut _)
    rw [hreceive, h.queue] at hreply
    by_cases hq0 : q = []
    · -- the worker finds nothing in its queue
      have hempty : questionBytes = [] := (encodeUtf8_nil_iff hq).2 hq0
      have hidle : (OpenSocketResponser.processQueue (some f) ⟨c, []⟩ [.ok]).1 = ⟨c, []⟩ := by
        simp [OpenSocketResponser.processQueue, hc, OpenSocketResponser.processTurn]
      rw [if_pos hempty, hidle, hsent] at hreply
      exact absurd hreply (ne_append_frame _ reply)
    · have hpayload : questionBytes ≠ [] := fun h0 => hq0 ((encodeUtf8_nil_iff hq).1 h0)
      rw [if_neg hpayload, List.nil_append, decodeUtf8Replace_encode hq,
        OpenSocketResponser.processQueue_reply (s := ⟨c, _⟩) hc rfl h.reply h.id_bytes h.reply_bytes h.reply_fits,
        hsent] at hreply
      obtain rfl : idBytes ++ DELIMITER ++ replyBytes = reply := by
        exact frame_injective (List.append_cancel_left hreply)
      rw [h.routes.back] at hup
      have hgot : ¬ (replyBytes = [] ∨ replyBytes = heartbeatResponse) := by
        -- either would leave `query` blocked
        intro hlost
        have hfit : replyBytes.length ≤ MAX_MSG_SIZE := by have := h.reply_fits; omega
        have hsame := received_same h.querier_connected h.querier_buffer hfit hlost
          (c := { a.KLquerier with sent := a.KLquerier.sent ++ frame (routing ++ DELIMITER ++ questionBytes) })
        have hblocked := OpenSocketQuerier.query_unanswered hsend hsame
        rw [hup [frame replyBytes] [] false (hcut _)] at hblocked
        cases hblocked
      refine ⟨rfl, hq0, fun hr0 => hgot (.inl ((encodeUtf8_nil_iff h.reply_bytes).2 hr0)), ?_⟩
      intro hr1
      have hbytes := h.reply_bytes
      rw [hr1, show encodeUtf8 (str "heartbeat_response") = some heartbeatResponse by decide] at hbytes
      exact hgot (.inr (Option.some.inj hbytes).symm)

/-- **`query(q)` returns exactly the reply** if and only if the question encodes and is not empty and the
reply is neither empty nor `heartbeat_response`. -/
theorem query_returns_reply_iff {svc : Service} {a : OpenSocketQuerier} {b : OpenSocketResponser} {f : Handler}
    {id q r : PyStr} {routing idBytes replyBytes : Bytes}
    (h : Exchange svc a b f id q r routing idBytes replyBytes) : Transparent svc a b f q r ↔
      (encodeUtf8 q).isSome = true ∧ q ≠ [] ∧ r ≠ [] ∧ r ≠ str "heartbeat_response" := by
  constructor
  · exact of_transparent h
  · rintro ⟨hq, hq0, hr0, hr1⟩
    obtain ⟨questionBytes, hq⟩ := Option.isSome_iff_exists.1 hq
    exact transparent_of h hq hq0 hr0 hr1

/-! ## A service that routes -/

/-- The service that swaps the routing part for the id and drops the id again. -/
def relay (routing id : Bytes) : Service where
  toResponser m := id ++ m.drop routing.length
  toQuerier m := m.drop (id.length + 3)

theorem relay_routes (routing id : Bytes) : (relay routing id).Routes routing id where
  forward d := by simp [relay]
  back r := List.drop_left' (by simp [DELIMITER, ascii])

/-- An echo through a freshly connected querier and responser. -/
theorem query_returns_reply_iff_echo :
    Transparent (relay (ascii "app-7") (ascii "3"))
      ⟨some (str "app"), some (str "7"), .fresh, .init, false, []⟩ ⟨.fresh, []⟩
      (fun q => .str (str "Echo: " ++ q)) (str "é") (str "Echo: é") := by
  have h : Exchange (relay (ascii "app-7") (ascii "3"))
      ⟨some (str "app"), some (str "7"), .fresh, .init, false, []⟩ ⟨.fresh, []⟩
      (fun q => .str (str "Echo: " ++ q)) (str "3") (str "é") (str "Echo: é") (ascii "app-7") (ascii "3")
      (ascii "Echo: " ++ [0xC3, 0xA9]) := by
    refine ⟨rfl, rfl, rfl, rfl, rfl, by decide, by decide, by decide, relay_routes _ _, by decide, by decide, ?_,
      by decide⟩
    intro d hd
    have hq : encodeUtf8 (str "é") = some [0xC3, 0xA9] := by decide
    obtain rfl := Option.some.inj (hq.symm.trans hd)
    decide
  exact (query_returns_reply_iff h).2 (by decide)

/-- The handler's reply is the text the querier's parser keeps for itself: `query` is never answered. -/
theorem heartbeat_reply_lost : ∃ (svc : Service) (a : OpenSocketQuerier) (b : OpenSocketResponser) (f : Handler)
    (id q r : PyStr) (routing idBytes replyBytes : Bytes),
    Exchange svc a b f id q r routing idBytes replyBytes ∧ q = str "q" ∧ r = str "heartbeat_response" ∧
      ¬ Transparent svc a b f q r := by
  have h : Exchange (relay (ascii "app-7") (ascii "3"))
      ⟨some (str "app"), some (str "7"), .fresh, .init, false, []⟩ ⟨.fresh, []⟩
      (fun _ => .str (str "heartbeat_response")) (str "3") (str "q") (str "heartbeat_response") (ascii "app-7")
      (ascii "3") heartbeatResponse := by
    refine ⟨rfl, rfl, rfl, rfl, rfl, by decide, by decide, by decide, relay_routes _ _, rfl, by decide, ?_,
      by decide⟩
    intro d hd
    have hq : encodeUtf8 (str "q") = some (ascii "q") := by decide
    obtain rfl := Option.some.inj (hq.symm.trans hd)
    decide
  exact ⟨_, _, _, _, _, _, _, _, _, _, h, rfl, rfl, fun ht => (of_transparent h ht).2.2.2 rfl⟩

end KnotLink.Python
