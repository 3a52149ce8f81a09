import Mathlib.Data.Prod.Basic
import KnotLink.BinaryReplies
import KnotLink.Signals
/-!
# Questions, answers and who gets them

The responser of an SDK takes a request `questionID&*&payload`, asks its application and sends
`questionID&*&answer`. Python and Rust queue the requests for the application, the others answer while they parse; C#
and C++ only know the handler. `Language.responded` is what one of them sends for a stream of requests whose application
has set its handler before.

The service is again a parameter, with what its clients rely on (test_request_response_integration.py): it gives the
questions of a channel ids of their own, passes them to the responser, and each answer to the querier whose question has
its id (`Service.Numbers`, `Service.Returns`). `questions_answered`: whatever the interleaving, every querier gets the
answers to its own questions, in the order of these, each once, as long as the clients keep to `Exchange.Admitted` and
the service and the network to `Exchange.Served`.
-/
namespace KnotLink
open Lib

/-- A request without what it is sent in. -/
structure Request where
  questionID : List Char
  payload : List Char
  deriving DecidableEq, Repr

def Request.bytes (r : Request) : Bytes := replyMessage (Utf8.encode r.questionID) (Utf8.encode r.payload)

/-! ## The responsers -/

namespace Rust

/-- `on_data` (open_socket_responser.rs:28-37) on what is in the channel. -/
def OpenSocketResponser.onData (rx : List (List Char × List Char)) (data : Bytes) : List (List Char × List Char) :=
  match Utf8.decodeStrict data with
  | none => rx
  | some s =>
    match cut? delimiter s with
    | some (key, tData) => rx ++ [(key, tData)]
    | none => rx

end Rust

namespace PyQt.OpenSocketResponser
open Python

/-- The `data_r` of `sendBack` (OpenSocketResponser.py:44-49). -/
def dataR (data questionID : PyStr) : Option Bytes :=
  match encodeUtf8 data with
  | none => none
  | some data =>
    match decodeUtf8 data with
    | none => none
    | some text => encodeUtf8 (questionID ++ str "&*&" ++ text)

/-- The replies of an application that answers in its slot of `receivedData`. What is raised in a slot ends the
process. -/
def replies (app : PyStr → PyStr) : List Bytes → List Bytes
  | [] => []
  | m :: ms =>
    match dataRecv m with
    | .error .unicodeDecode => []
    | .ok none => replies app ms
    | .ok (some (key, tData)) =>
      match dataR (app tData) key with
      | none => []
      | some reply => reply :: replies app ms

end PyQt.OpenSocketResponser

namespace Language

/-- The messages a client hands over; those of C# before it makes texts of them. -/
def received (chunks : List Bytes) : Language → List Bytes
  | .python => (Python.TcpClient.receiveChunks (some Python.quiet) .fresh chunks).received
  | .pyqt => (chunks.foldl (QtSocket.TcpClient.readyRead PyQt.frameEnd QtSocket.TcpClient.record) ⟨true, [], [], []⟩).slots
  | .qt => (chunks.foldl (QtSocket.TcpClient.readyRead Qt.frameEnd QtSocket.TcpClient.record) ⟨true, [], [], []⟩).slots
  | .java => (Java.TcpClient.readChunks Java.quiet .connected chunks).delivered
  | .js => (Js.TcpClient.start.onChunks (some Js.Client.quiet) chunks).delivered
  | .cpp => (Cpp.TcpClient.readChunks .connected chunks).delivered
  | .csharp => (CSharp.ReadLoop.readChunks .start chunks).extracted.filter isMessage
  | .rust => (Rust.Run.readChunks .start chunks).onData

/-- What the responser of an SDK, with this application, hands to its client. -/
def responded (fromUtf8 : Bytes → List Char) (chunks : List Bytes) : (l : Language) → (l.Text → l.Text) → List Bytes
  | .python, app =>
    (Python.OpenSocketResponser.receive ⟨.fresh, []⟩ chunks).dataQueue.filterMap fun e =>
      Python.OpenSocketResponser.sData (app e.1) e.2
  | .pyqt, app => PyQt.OpenSocketResponser.replies app (received chunks .pyqt)
  | .qt, app =>
    ((received chunks .qt).filterMap (Qt.dataRecv fromUtf8)).map fun e =>
      Qt.OpenSocketResponser.sendBack (Utf8.encode (app e.2)) e.1
  | .java, app =>
    ((received chunks .java).filterMap fun m => Java.dataRecv true (Utf8.decodeReplace m)).map fun e =>
      Java.packet (Utf8.encode (app e.2)) e.1
  | .js, app =>
    ((received chunks .js).filterMap Js.handleRequest).map fun e =>
      Js.bufferFrom (Js.OpenSocketResponser.response (.string (Encoding.utf16.encode (app e.2)))
        (Encoding.utf16.encode e.1))
  | .cpp, app => ((received chunks .cpp).filterMap (Cpp.handleReceivedData (some app))).map (·.response)
  | .csharp, app =>
    let task := CSharp.ReadTask.readLoop (some fun _ => ⟨.live, false⟩) none (chunks.map .bytes)
    task.loop.delivered.filterMap fun text =>
      match CSharp.handleDataAsync (some app) text with
      | .ok (some handled) => some (Utf8.encode handled.response)
      | _ => none
  | .rust, app =>
    ((received chunks .rust).foldl Rust.OpenSocketResponser.onData []).map fun e =>
      Rust.OpenSocketResponser.sendBack e.1 (app e.2)

/-- The responser of the SDK takes the request: the id can be told from what follows it, Python drops an empty
payload, PyQt and JavaScript refuse one that holds the delimiter, Qt reads plain texts only. -/
structure Takes (l : Language) (r : Request) : Prop where
  key : Python.Key (Python.text r.questionID)
  python : l = .python → r.payload ≠ []
  split : l = .pyqt ∨ l = .js → ¬ delimiter <:+: r.payload
  plain : l = .qt → Qt.Plain (r.questionID ++ delimiter ++ r.payload)

section
variable {chunks out : List Bytes} (hne : ∀ c ∈ chunks, c ≠ []) (hout : ∀ m ∈ out, Admissible m)
  (hcut : chunks.flatten = wire.encodeAll out)
include hne hout hcut

/-- The clients hand over the same messages. -/
theorem received_eq (l : Language) (hspared : l = .csharp → CSharp.ReadLoop.CutsSpareBodies out chunks) :
    l.received chunks = out.filter isMessage := by
  have hmessages : messages chunks.flatten = out.filter isMessage :=
    messages_split (hcut ▸ Codec.split_encodeAll (F := wire) hout)
  have hqt (e : QtSocket.FrameEnd) : (chunks.foldl (QtSocket.TcpClient.readyRead e QtSocket.TcpClient.record)
      ⟨true, [], [], []⟩).slots = messages chunks.flatten := by
    have h0 : QtSocket.TcpClient.view.Follows [] ⟨true, [], [], []⟩ ⟨[], [], true⟩ := ⟨rfl, fun _ => rfl, rfl⟩
    have hfollows := wire.feedAll_follow (R := QtSocket.TcpClient.view.Follows []) (P := fun c => c ≠ [])
      (fun hc h => QtSocket.TcpClient.readyRead_follows e h hc) hne h0
    exact hfollows.messages rfl
  rw [← hmessages]
  cases l with
  | python =>
    have h0 : Python.TcpClient.view.Follows [] .fresh ⟨[], [], true⟩ := ⟨rfl, fun _ => rfl, rfl⟩
    exact (Python.TcpClient.receiveChunks_follows hne h0).messages rfl
  | pyqt => exact hqt _
  | qt => exact hqt _
  | java =>
    have h0 : Java.TcpClient.view.Follows [] .connected ⟨[], [], true⟩ :=
      ⟨rfl, fun _ => Java.ByteBuffer.contents_empty, rfl⟩
    exact (Java.TcpClient.readChunks_follows h0 chunks).messages rfl
  | js =>
    have h0 : Js.TcpClient.view.Follows [] .start ⟨[], [], true⟩ := ⟨rfl, fun _ => rfl, rfl⟩
    exact (Js.Client.onChunks_follows h0 chunks).messages rfl
  | cpp =>
    have h0 : Cpp.TcpClient.view.Follows [] .connected ⟨[], [], true⟩ := ⟨rfl, fun _ => rfl, rfl⟩
    exact (Cpp.TcpClient.readChunks_follows h0 hne).messages rfl
  | csharp =>
    rw [hmessages, received, (CSharp.ReadLoop.recovers_of_spared hout hne hcut (hspared rfl)).1]
  | rust =>
    have h0 : Rust.Run.view.Follows [] .start ⟨[], [], true⟩ := ⟨rfl, fun _ => rfl, rfl⟩
    exact (Rust.Run.readChunks_follows h0 hne).messages rfl

end

end Language

/-! ## Each responser on its requests -/

section
variable {requests : List Request}

theorem Request.bytes_eq (r : Request) : r.bytes = Utf8.encode (r.questionID ++ delimiter ++ r.payload) := by
  rw [Request.bytes, replyMessage_encode, List.append_assoc]

theorem Request.admissible {r : Request} (h : r.bytes.length ≤ MAX_MSG_SIZE) : Admissible r.bytes := by
  refine ⟨?_, h⟩
  simp only [Request.bytes, replyMessage, List.length_append]
  have : 0 < Python.DELIMITER.length := by decide
  omega

theorem Language.Takes.cut? {l : Language} {r : Request} (h : l.Takes r) :
    Lib.cut? delimiter (r.questionID ++ delimiter ++ r.payload) = some (r.questionID, r.payload) :=
  cut?_key.2 ⟨h.key, rfl⟩

/-- A responser that looks at each message by itself. -/
theorem filterMap_requests {α : Type} {l : Language} (htakes : ∀ r ∈ requests, l.Takes r) (handle : Bytes → Option α)
    (g : Request → α) (h : ∀ r, l.Takes r → handle r.bytes = some (g r)) :
    (requests.map Request.bytes).filterMap handle = requests.map g := by
  rw [List.filterMap_map, ← List.filterMap_eq_map]
  exact List.filterMap_congr fun r hr => h r (htakes r hr)

theorem Python.OpenSocketResponser.dataQueue_requests (htakes : ∀ r ∈ requests, Language.python.Takes r)
    (s : OpenSocketResponser) : ((requests.map Request.bytes).foldl internalDataRecv s).dataQueue =
      s.dataQueue ++ requests.map fun r => (text r.payload, text r.questionID) := by
  induction requests generalizing s with
  | nil => simp
  | cons r rs ih =>
    have hr := htakes r List.mem_cons_self
    have hqueue := internalDataRecv_some s hr.cut?
    rw [← r.bytes_eq, if_neg (hr.python rfl)] at hqueue
    rw [List.map_cons, List.foldl_cons, hqueue, ih fun r h => htakes r (List.mem_cons_of_mem _ h)]
    simp

theorem Rust.OpenSocketResponser.foldl_requests (htakes : ∀ r ∈ requests, Language.rust.Takes r)
    (rx : List (List Char × List Char)) : (requests.map Request.bytes).foldl onData rx =
      rx ++ requests.map fun r => (r.questionID, r.payload) := by
  induction requests generalizing rx with
  | nil => simp
  | cons r rs ih =>
    have hr := htakes r List.mem_cons_self
    have hrx : onData rx r.bytes = rx ++ [(r.questionID, r.payload)] := by
      simp only [onData, r.bytes_eq, Utf8.decodeStrict_encode, hr.cut?]
    rw [List.map_cons, List.foldl_cons, hrx, ih fun r h => htakes r (List.mem_cons_of_mem _ h)]
    simp

theorem PyQt.OpenSocketResponser.dataR_text (data questionID : List Char) :
    dataR (Python.text data) (Python.text questionID) =
      some (replyMessage (Utf8.encode questionID) (Utf8.encode data)) := by
  have hkey := Python.encodeUtf8_append (Python.encodeUtf8_append (Python.encodeUtf8_text questionID)
    Python.encodeUtf8_delimiter) (Python.encodeUtf8_text data)
  simp only [dataR, Python.encodeUtf8_text, Python.decodeUtf8_encode (Python.encodeUtf8_text data), hkey]
  rfl

theorem PyQt.OpenSocketResponser.replies_requests (htakes : ∀ r ∈ requests, Language.pyqt.Takes r)
    {app : Python.PyStr → Python.PyStr} {f : List Char → List Char}
    (happ : ∀ cs, app (Python.text cs) = Python.text (f cs)) :
    replies app (requests.map Request.bytes) =
      requests.map fun r => Request.bytes ⟨r.questionID, f r.payload⟩ := by
  induction requests with
  | nil => rfl
  | cons r rs ih =>
    have hr := htakes r List.mem_cons_self
    have hrecv := dataRecv_some hr.cut? (hr.split (.inl rfl))
    rw [← r.bytes_eq] at hrecv
    rw [List.map_cons, replies, hrecv]
    dsimp only
    rw [happ, dataR_text, ih fun r h => htakes r (List.mem_cons_of_mem _ h)]
    rfl

theorem Js.bufferFrom_text (cs : List Char) : bufferFrom (Encoding.utf16.encode cs) = Utf8.encode cs := by
  rw [bufferFrom, Encoding.decode16_encode]

theorem Js.OpenSocketResponser.bufferFrom_response_text (data questionID : List Char) :
    bufferFrom (response (.string (Encoding.utf16.encode data)) (Encoding.utf16.encode questionID)) =
      replyMessage (Utf8.encode questionID) (Utf8.encode data) := by
  have hresponse := bufferFrom_response (bufferFrom (Encoding.utf16.encode data)) (Encoding.utf16.encode questionID)
  rw [bufferFrom_text, bufferFrom_text, Utf8.decodeReplace_encode] at hresponse
  rw [← hresponse, ← bufferFrom_text]
  rfl

/-- **The responsers of all SDKs answer alike**: each request that is taken once, in order, by its id and the answer
of the application. -/
theorem Language.responded_eq {fromUtf8 : Bytes → List Char} (hfrom : Qt.Decodes fromUtf8) {chunks out : List Bytes}
    (hne : ∀ c ∈ chunks, c ≠ []) (hout : ∀ m ∈ out, Admissible m)
    (hcut : chunks.flatten = wire.encodeAll out) (hrequests : out.filter isMessage = requests.map Request.bytes)
    (l : Language) (hspared : l = .csharp → CSharp.ReadLoop.CutsSpareBodies out chunks)
    (htakes : ∀ r ∈ requests, l.Takes r) {app : l.Text → l.Text} {f : List Char → List Char}
    (happ : ∀ cs, app (l.ofChars cs) = l.ofChars (f cs)) :
    l.responded fromUtf8 chunks app = requests.map fun r => Request.bytes ⟨r.questionID, f r.payload⟩ := by
  have hreceived := received_eq hne hout hcut l hspared
  rw [hrequests] at hreceived
  cases l with
  | python =>
    have hqueue : (Python.OpenSocketResponser.receive ⟨.fresh, []⟩ chunks).dataQueue =
        requests.map fun r => (Python.text r.payload, Python.text r.questionID) := by
      have hnew : (Python.TcpClient.fresh.receiveChunks (some Python.quiet) chunks).received =
          Python.TcpClient.fresh.received ++ requests.map Request.bytes := hreceived
      rw [Python.OpenSocketResponser.receive_eq hnew, Python.OpenSocketResponser.dataQueue_requests htakes]
      rfl
    rw [responded, hqueue, List.filterMap_map, ← List.filterMap_eq_map]
    refine List.filterMap_congr fun r _ => Python.OpenSocketResponser.sData_eq_some.2 ?_
    exact ⟨_, _, Python.encodeUtf8_text _, (congrArg _ (happ r.payload)).trans (Python.encodeUtf8_text _), rfl⟩
  | pyqt =>
    rw [responded, hreceived]
    exact PyQt.OpenSocketResponser.replies_requests htakes happ
  | qt =>
    have hhandled := filterMap_requests htakes (Qt.dataRecv fromUtf8) (fun r => (r.questionID, r.payload)) fun r hr => by
      rw [Qt.dataRecv_eq_some, r.bytes_eq, hfrom _ (hr.plain rfl)]
      exact hr.cut?
    rw [responded, hreceived, hhandled, List.map_map]
    refine List.map_congr_left fun r _ => ?_
    exact congrArg (fun data => Qt.OpenSocketResponser.sendBack (Utf8.encode data) r.questionID) (happ r.payload)
  | java =>
    have hhandled := filterMap_requests htakes (fun m => Java.dataRecv true (Utf8.decodeReplace m))
      (fun r => (r.questionID, r.payload)) fun r hr => by
        rw [Java.dataRecv_eq_some, r.bytes_eq, Utf8.decodeReplace_encode]
        exact hr.cut?
    rw [responded, hreceived, hhandled, List.map_map]
    refine List.map_congr_left fun r _ => ?_
    have hpacket (data : List Char) : Java.packet (Utf8.encode data) r.questionID = Request.bytes ⟨r.questionID, data⟩ := by
      rw [Java.packet, Utf8.encode_append, ← Python.delimiter_encode]
      rfl
    exact (congrArg (fun data => Java.packet (Utf8.encode data) r.questionID) (happ r.payload)).trans (hpacket _)
  | js =>
    have hhandled := filterMap_requests htakes Js.handleRequest (fun r => (r.questionID, r.payload)) fun r hr => by
      rw [r.bytes_eq]
      exact Js.handleRequest_some hr.cut? (hr.split (.inr rfl))
    rw [responded, hreceived, hhandled, List.map_map]
    refine List.map_congr_left fun r _ => ?_
    exact (congrArg (fun data => Js.bufferFrom (Js.OpenSocketResponser.response
      (.string (Encoding.utf16.encode data)) (Encoding.utf16.encode r.questionID))) (happ r.payload)).trans
        (Js.OpenSocketResponser.bufferFrom_response_text _ _)
  | cpp =>
    have hhandled := filterMap_requests htakes (Cpp.handleReceivedData (some (show Bytes → Bytes from app))) _
      fun r hr => by
        rw [r.bytes_eq]
        exact Cpp.handleReceivedData_some (show Bytes → Bytes from app) hr.cut?
    rw [responded, hreceived, hhandled, List.map_map]
    refine List.map_congr_left fun r _ => ?_
    exact congrArg (fun data : Bytes => Utf8.encode r.questionID ++ ascii "&*&" ++ data) (happ r.payload)
  | csharp =>
    have htexts : (CSharp.ReadTask.readLoop (some fun _ => ⟨.live, false⟩) none (chunks.map .bytes)).loop.delivered =
        (received chunks .csharp).map Utf8.decodeReplace :=
      CSharp.ReadTask.delivered_readLoop (fun _ => rfl) chunks
    rw [hreceived] at htexts
    have hresponse (r : Request) (data : List Char) :
        Utf8.encode (r.questionID ++ delimiter ++ data) = Request.bytes ⟨r.questionID, data⟩ :=
      (Request.bytes_eq ⟨r.questionID, data⟩).symm
    dsimp only [responded]
    rw [htexts, List.filterMap_map, List.filterMap_map, ← List.filterMap_eq_map]
    refine List.filterMap_congr fun r hr => ?_
    simp only [Function.comp_apply, r.bytes_eq, Utf8.decodeReplace_encode,
      CSharp.handleDataAsync_some app (htakes r hr).cut?]
    exact congrArg some ((congrArg (fun data => Utf8.encode (r.questionID ++ delimiter ++ data)) (happ r.payload)).trans
      (hresponse r _))
  | rust =>
    rw [responded, hreceived, Rust.OpenSocketResponser.foldl_requests htakes, List.nil_append, List.map_map]
    refine List.map_congr_left fun r _ => ?_
    have hsent (data : List Char) :
        Rust.OpenSocketResponser.sendBack r.questionID data = Request.bytes ⟨r.questionID, data⟩ :=
      (Request.bytes_eq ⟨r.questionID, data⟩).symm
    exact (congrArg (Rust.OpenSocketResponser.sendBack r.questionID) (happ r.payload)).trans (hsent _)

end

/-! ## The whole exchange -/

/-- A question with the id that the service has given it. -/
structure Ticket (ι : Type) where
  questionID : List Char
  querier : ι
  question : List Char
  deriving DecidableEq, Repr

def Ticket.request {ι : Type} (t : Ticket ι) : Request := ⟨t.questionID, t.question⟩

/-- The answer, as the responser sends it. -/
def Ticket.reply {ι : Type} (f : List Char → List Char) (t : Ticket ι) : Bytes :=
  Request.bytes ⟨t.questionID, f t.question⟩

namespace Service
variable {ι : Type}

/-- The questions for a key in what the service has read of its queriers. -/
def questions (key : Bytes) (read : List (ι × Bytes)) : List (ι × Bytes) :=
  choose (fun m => ((cut? Python.DELIMITER m).filter (·.1 = key)).map Prod.snd) read

/-- The service gives each of them an id of its own. -/
structure Numbers (key : Bytes) (read : List (ι × Bytes)) (tickets : List (Ticket ι)) : Prop where
  questions : tickets.map (fun t => (t.querier, Utf8.encode t.question)) = Service.questions key read
  distinct : (tickets.map (·.questionID)).Nodup
  keys : ∀ t ∈ tickets, Python.Key (Python.text t.questionID)

/-- The querier whose question has this id. -/
def asker (tickets : List (Ticket ι)) (questionID : Bytes) : Option ι :=
  (tickets.find? fun t => Utf8.encode t.questionID = questionID).map (·.querier)

/-- The querier `i` is sent the answers `out` among the messages `said` of the responser. -/
def Returns [DecidableEq ι] (tickets : List (Ticket ι)) (said : List Bytes) (i : ι) (out : List Bytes) : Prop :=
  out.filter isMessage =
    (said.filterMap fun m => (cut? Python.DELIMITER m).bind fun e =>
      if asker tickets e.1 = some i then some e.2 else none).filter isMessage

end Service

/-- Queriers with a connection each, one responser of the channel `APPID-ID`, and what was sent. -/
structure Exchange (ι : Type) where
  querier : ι → Language
  responser : Language
  APPID : List Char
  ID : List Char
  calls : ι → List ClientCall
  /-- What the service has read of the queriers, in its order, and the ids it has given. -/
  read : List (ι × Bytes)
  tickets : List (Ticket ι)
  /-- The messages to the responser, and the chunks they come in. -/
  asked : List Bytes
  askedChunks : List Bytes
  /-- The messages of the responser, its heartbeats among them. -/
  said : List Bytes
  /-- The messages to each querier, and the chunks they come in. -/
  answered : ι → List Bytes
  answeredChunks : ι → List Bytes

namespace Exchange
variable {ι : Type} [DecidableEq ι] {behind : Bytes → Bytes} {fromUtf8 : Bytes → List Char} {f : List Char → List Char}
  (x : Exchange ι)

/-- The questions of a querier. -/
def asks (i : ι) : List (List Char) := ((x.calls i).filterMap ClientCall.packet?).map (·.data)

/-- What the clients have to keep to: the questions are for the channel and within the limit, the responser takes
them, and the answers, which `f` gives, are not empty and within the limit. For a Qt responser ids and questions are
plain. -/
structure Admitted (f : List Char → List Char) : Prop where
  sendable : ∀ i p, .send p ∈ x.calls i → p.Sendable
  channel : ∀ i p, .send p ∈ x.calls i → KnotLink.channel p.APPID p.ID = KnotLink.channel x.APPID x.ID
  split : x.responser = .pyqt ∨ x.responser = .js → ∀ i, ∀ q ∈ x.asks i, ¬ delimiter <:+: q
  answers : ∀ i, ∀ q ∈ x.asks i, f q ≠ []
  said : ∀ m ∈ x.said, m.length ≤ MAX_MSG_SIZE
  plain : x.responser = .qt → ∀ t ∈ x.tickets, Qt.Plain (t.questionID ++ delimiter ++ t.question)

/-- What the service does, and how the network cuts what it sends. -/
structure Served (behind : Bytes → Bytes) : Prop where
  read : Merges (fun i => Service.reads (ClientCall.stream behind Language.query (x.querier i) (x.calls i))) x.read
  numbers : ∀ key, x.responser.register x.APPID x.ID = some key → Service.Numbers key x.read x.tickets
  asked : x.asked.filter isMessage = x.tickets.map (·.request.bytes)
  askedLength : ∀ m ∈ x.asked, m.length ≤ MAX_MSG_SIZE
  askedChunks : (∀ c ∈ x.askedChunks, c ≠ []) ∧ x.askedChunks.flatten = wire.encodeAll x.asked
  askedSpared : x.responser = .csharp → CSharp.ReadLoop.CutsSpareBodies x.asked x.askedChunks
  answered : ∀ i, Service.Returns x.tickets
    (Service.reads (x.said.flatMap fun m => x.responser.written behind m)) i (x.answered i)
  answeredChunks : ∀ i, (∀ c ∈ x.answeredChunks i, c ≠ []) ∧ (x.answeredChunks i).flatten = wire.encodeAll (x.answered i)
  answeredSpared : ∀ i, x.querier i = .csharp → CSharp.ReadLoop.CutsSpareBodies (x.answered i) (x.answeredChunks i)

variable {x}

/-- The tickets of a querier hold its questions. -/
theorem tickets_merge (hadmitted : x.Admitted f) (hserved : x.Served behind) :
    Merges x.asks (x.tickets.map fun t => (t.querier, t.question)) := by
  obtain ⟨taken, htaken, hread⟩ : ∃ taken, Merges x.calls taken ∧ taken.map (Prod.map id ClientCall.bytes) = x.read := by
    refine Merges.lift ?_
    intro i
    rw [hserved.read i]
    exact reads_stream behind Language.query_eq (x.querier i) (hadmitted.sendable i)
  have hquestions := (hserved.numbers _ (x.responser.register_eq x.APPID x.ID)).questions
  have hcut : Service.questions (Utf8.encode (channel x.APPID x.ID)) x.read =
      (choose (fun c => c.packet?.map (·.data)) taken).map (Prod.map id Utf8.encode) := by
    rw [Service.questions, choose, choose, ← hread, List.filterMap_map, List.map_filterMap]
    refine List.filterMap_congr fun c hc => ?_
    obtain ⟨i, c⟩ := c
    have hmem : c ∈ x.calls i := htaken.mem hc
    simp only [Function.comp_apply, Prod.map_apply, id_eq]
    rw [ClientCall.cut?_bytes fun p hp => hadmitted.sendable i p (hp ▸ hmem)]
    cases c with
    | send p => simp [ClientCall.packet?, hadmitted.channel i p hmem]
    | heartbeat => rfl
  have htickets : x.tickets.map (fun t => (t.querier, t.question)) = choose (fun c => c.packet?.map (·.data)) taken := by
    refine List.map_injective_iff.2 (Function.injective_id.prodMap encode_injective) ?_
    rw [← hcut, ← hquestions, List.map_map]
    rfl
  rw [htickets]
  intro i
  rw [htaken.filterMap _ i, asks, List.map_filterMap]

theorem mem_asks (hadmitted : x.Admitted f) (hserved : x.Served behind) {t : Ticket ι} (ht : t ∈ x.tickets) :
    t.question ∈ x.asks t.querier :=
  (tickets_merge hadmitted hserved).mem (List.mem_map_of_mem (f := fun t : Ticket ι => (t.querier, t.question)) ht)

theorem exists_ticket (hadmitted : x.Admitted f) (hserved : x.Served behind) {i : ι} {q : List Char}
    (hq : q ∈ x.asks i) : ∃ t ∈ x.tickets, t.querier = i ∧ t.question = q := by
  rw [← tickets_merge hadmitted hserved i, mem_fromSource] at hq
  obtain ⟨t, ht, heq⟩ := List.mem_map.1 hq
  obtain ⟨hi, hq⟩ := Prod.mk.inj heq
  exact ⟨t, ht, hi, hq⟩

theorem takes (hadmitted : x.Admitted f) (hserved : x.Served behind) {t : Ticket ι} (ht : t ∈ x.tickets) :
    x.responser.Takes t.request := by
  have hmem := mem_asks hadmitted hserved ht
  refine ⟨(hserved.numbers _ (x.responser.register_eq x.APPID x.ID)).keys t ht, fun _ => ?_,
    fun hsplit => hadmitted.split hsplit _ _ hmem, fun hqt => hadmitted.plain hqt t ht⟩
  obtain ⟨p, hp, hdata⟩ := List.mem_map.1 hmem
  obtain ⟨c, hc, hpacket⟩ := List.mem_filterMap.1 hp
  rw [ClientCall.packet?_eq_some.1 hpacket] at hc
  have hquestion : t.request.payload = p.data := hdata.symm
  rw [hquestion]
  exact (hadmitted.sendable _ p hc).data

omit [DecidableEq ι] in
/-- The service finds the querier by the id of its question. -/
theorem asker_ticket {tickets : List (Ticket ι)} (hdistinct : (tickets.map (·.questionID)).Nodup) {t : Ticket ι}
    (ht : t ∈ tickets) : Service.asker tickets (Utf8.encode t.questionID) = some t.querier := by
  induction tickets with
  | nil => cases ht
  | cons u us ih =>
    rw [List.map_cons, List.nodup_cons] at hdistinct
    rw [Service.asker, List.find?_cons]
    by_cases hu : u.questionID = t.questionID
    · simp only [hu, decide_true]
      rcases List.mem_cons.1 ht with rfl | ht
      · rfl
      · exact absurd (hu ▸ List.mem_map_of_mem ht) hdistinct.1
    · have hne : Utf8.encode u.questionID ≠ Utf8.encode t.questionID := fun h => hu (encode_injective h)
      simp only [hne, decide_false]
      exact ih hdistinct.2 ((List.mem_cons.1 ht).resolve_left fun h => hu (h ▸ rfl))

/-- What the responser of any SDK hands to its client. -/
theorem responded_tickets (hfrom : Qt.Decodes fromUtf8) (hadmitted : x.Admitted f) (hserved : x.Served behind)
    {app : x.responser.Text → x.responser.Text} (happ : ∀ cs, app (x.responser.ofChars cs) = x.responser.ofChars (f cs)) :
    x.responser.responded fromUtf8 x.askedChunks app = x.tickets.map (Ticket.reply f) := by
  have hrequests : x.asked.filter isMessage = (x.tickets.map Ticket.request).map Request.bytes := by
    rw [hserved.asked, List.map_map]
    rfl
  have hout : ∀ m ∈ x.asked, Admissible m := by
    intro m hm
    cases hkeep : isMessage m with
    | true =>
      have hmem := List.mem_filter.2 ⟨hm, hkeep⟩
      rw [hserved.asked] at hmem
      obtain ⟨t, -, rfl⟩ := List.mem_map.1 hmem
      exact Request.admissible (hserved.askedLength _ hm)
    | false =>
      obtain rfl : m = heartbeatResponse := by simpa [isMessage] using hkeep
      decide
  have htakes : ∀ r ∈ x.tickets.map Ticket.request, x.responser.Takes r := by
    intro r hr
    obtain ⟨t, ht, rfl⟩ := List.mem_map.1 hr
    exact takes hadmitted hserved ht
  rw [x.responser.responded_eq hfrom hserved.askedChunks.1 hout hserved.askedChunks.2 hrequests hserved.askedSpared
    htakes happ, List.map_map]
  rfl

/-- What the service reads of the responser: its answers, between its heartbeats. -/
theorem reads_said (hfrom : Qt.Decodes fromUtf8) (hadmitted : x.Admitted f) (hserved : x.Served behind)
    {app : x.responser.Text → x.responser.Text} (happ : ∀ cs, app (x.responser.ofChars cs) = x.responser.ofChars (f cs))
    (hsaid : x.said.filter (· ≠ heartbeat) = x.responser.responded fromUtf8 x.askedChunks app) :
    Service.reads (x.said.flatMap fun m => x.responser.written behind m) = x.said := by
  refine reads_written behind x.responser fun m hm => ?_
  by_cases hbeat : m = heartbeat
  · subst hbeat
    decide
  · have hmem : m ∈ x.said.filter (· ≠ heartbeat) := List.mem_filter.2 ⟨hm, decide_eq_true hbeat⟩
    rw [hsaid, responded_tickets hfrom hadmitted hserved happ] at hmem
    obtain ⟨t, -, rfl⟩ := List.mem_map.1 hmem
    exact Request.admissible (hadmitted.said _ hm)

/-- What the service sends to a querier. -/
theorem answered_eq (hfrom : Qt.Decodes fromUtf8) (hadmitted : x.Admitted f) (hserved : x.Served behind)
    {app : x.responser.Text → x.responser.Text} (happ : ∀ cs, app (x.responser.ofChars cs) = x.responser.ofChars (f cs))
    (hsaid : x.said.filter (· ≠ heartbeat) = x.responser.responded fromUtf8 x.askedChunks app) (i : ι) :
    (x.answered i).filter isMessage = (((x.asks i).map f).filter (· ≠ "heartbeat_response".toList)).map Utf8.encode := by
  have hnumbers := hserved.numbers _ (x.responser.register_eq x.APPID x.ID)
  have hreturns := hserved.answered i
  rw [reads_said hfrom hadmitted hserved happ hsaid, Service.Returns] at hreturns
  let route (m : Bytes) : Option Bytes := (cut? Python.DELIMITER m).bind fun e =>
    if Service.asker x.tickets e.1 = some i then some e.2 else none
  -- heartbeats are routed to nobody
  have hroute : x.said.filterMap route = (x.said.filter (· ≠ heartbeat)).filterMap route := by
    rw [List.filterMap_filter]
    refine List.filterMap_congr fun m _ => ?_
    by_cases hm : m = heartbeat
    · subst hm
      have hcut : cut? Python.DELIMITER heartbeat = none := by decide
      simp [route, hcut]
    · simp [hm]
  have hreply : ∀ t ∈ x.tickets, route (t.reply f) =
      if t.querier = i then some (Utf8.encode (f t.question)) else none := by
    intro t ht
    obtain ⟨hin, hend⟩ := (hnumbers.keys t ht).bytes (Python.encodeUtf8_text _)
    have hcut : cut? Python.DELIMITER (t.reply f) = some (Utf8.encode t.questionID, Utf8.encode (f t.question)) :=
      (cut?_delimiter (by decide)).2 ⟨rfl, hin, hend⟩
    simp only [route, hcut, Option.bind_some, asker_ticket hnumbers.distinct ht, Option.some.injEq]
  have hanswers : x.said.filterMap route = ((x.asks i).map f).map Utf8.encode := by
    rw [hroute, hsaid, responded_tickets hfrom hadmitted hserved happ, List.filterMap_map,
      ← tickets_merge hadmitted hserved i, fromSource, List.filter_map, List.map_map, List.map_map, List.map_map,
      ← List.filterMap_eq_map, List.filterMap_filter]
    refine List.filterMap_congr fun t ht => (hreply t ht).trans ?_
    simp
  rw [hreturns, hanswers, List.filter_map, encode_heartbeat]

/-- **Every querier gets the answers to its own questions**, each once and in the order of the questions, whatever
SDKs the parties use and in whatever order the service reads the queriers. An answer that reads `heartbeat_response` is
taken for one. -/
theorem questions_answered (behind : Bytes → Bytes) (hfrom : Qt.Decodes fromUtf8) (f : List Char → List Char)
    (x : Exchange ι)
    (hadmitted : x.Admitted f) (hserved : x.Served behind) (app : x.responser.Text → x.responser.Text)
    (happ : ∀ cs, app (x.responser.ofChars cs) = x.responser.ofChars (f cs))
    (hsaid : x.said.filter (· ≠ heartbeat) = x.responser.responded fromUtf8 x.askedChunks app) (i : ι) :
    (x.querier i).received (x.answeredChunks i) =
      (((x.asks i).map f).filter (· ≠ "heartbeat_response".toList)).map Utf8.encode := by
  have hanswered := answered_eq hfrom hadmitted hserved happ hsaid i
  obtain ⟨hne, hcut⟩ := hserved.answeredChunks i
  have hout : ∀ m ∈ x.answered i, Admissible m := by
    intro m hm
    cases hkeep : isMessage m with
    | true =>
      have hmem := List.mem_filter.2 ⟨hm, hkeep⟩
      rw [hanswered] at hmem
      obtain ⟨cs, hcs, rfl⟩ := List.mem_map.1 hmem
      obtain ⟨q, hq, rfl⟩ := List.mem_map.1 (List.mem_filter.1 hcs).1
      -- the answer is behind an id in a message of the responser
      obtain ⟨t, ht, -, rfl⟩ := exists_ticket hadmitted hserved hq
      have hreply : t.reply f ∈ x.said.filter (· ≠ heartbeat) := by
        rw [hsaid, responded_tickets hfrom hadmitted hserved happ]
        exact List.mem_map_of_mem ht
      have hlen := hadmitted.said _ (List.mem_filter.1 hreply).1
      simp only [Ticket.reply, Request.bytes, replyMessage, List.length_append] at hlen
      have hpos : Utf8.encode (f t.question) ≠ [] := by
        intro hnil
        have htext := (Python.encodeUtf8_nil_iff (Python.encodeUtf8_text (f t.question))).1 hnil
        exact hadmitted.answers i _ hq (List.map_eq_nil_iff.1 htext)
      exact ⟨List.length_pos_iff.2 hpos, by omega⟩
    | false =>
      obtain rfl : m = heartbeatResponse := by simpa [isMessage] using hkeep
      decide
  rw [(x.querier i).received_eq hne hout hcut (hserved.answeredSpared i), hanswered]

/-- A Python and a Rust querier, whose questions reach a Java responser in the other order. -/
def twoQueriers : Exchange Bool where
  querier i := if i then .python else .rust
  responser := .java
  APPID := ['a']
  ID := ['o']
  calls i := if i then [.send ⟨['a'], ['o'], ['x']⟩, .heartbeat] else [.send ⟨['a'], ['o'], ['y']⟩]
  read := [(false, ascii "a-o&*&y"), (true, ascii "a-o&*&x"), (true, heartbeat)]
  tickets := [⟨['1'], false, ['y']⟩, ⟨['2'], true, ['x']⟩]
  asked := [ascii "1&*&y", heartbeatResponse, ascii "2&*&x"]
  askedChunks := [frame (ascii "1&*&y") ++ frame heartbeatResponse, frame (ascii "2&*&x")]
  said := [heartbeat, ascii "1&*&!y", ascii "2&*&!x"]
  answered i := if i then [ascii "!x"] else [heartbeatResponse, ascii "!y"]
  answeredChunks i := if i then [frame (ascii "!x")] else [frame heartbeatResponse ++ MAGIC, [0, 0, 0, 2] ++ ascii "!y"]

theorem questions_answered_two :
    Language.python.received (twoQueriers.answeredChunks true) = [ascii "!x"] ∧
      Language.rust.received (twoQueriers.answeredChunks false) = [ascii "!y"] := by
  have hcalls : ∀ i p, .send p ∈ twoQueriers.calls i → p = ⟨['a'], ['o'], if i then ['x'] else ['y']⟩ := by
    intro i p hp
    cases i <;> simpa [twoQueriers] using hp
  have hadmitted : twoQueriers.Admitted fun q => '!' :: q := by
    refine ⟨fun i p hp => ?_, fun i p hp => ?_, ?_, fun i q _ => by simp, by decide, fun h => by cases h⟩
    · rw [hcalls i p hp]
      cases i <;> exact ⟨by decide, by decide, by decide⟩
    · rw [hcalls i p hp]
      rfl
    · rintro (h | h) <;> cases h
  have hserved : twoQueriers.Served fun _ => [] := by
    refine ⟨fun i => ?_, fun key hkey => ?_, by decide, by decide, by decide, (nomatch ·), fun i => ?_, by decide, ?_⟩
    · dsimp only
      rw [reads_stream _ Language.query_eq _ (hadmitted.sendable i)]
      cases i <;> decide
    · obtain rfl := Option.some.inj hkey
      exact ⟨by decide, by decide, by decide⟩
    · rw [reads_written _ _ (by decide)]
      cases i <;> exact show _ = _ by decide
    · rintro (_ | _) h <;> cases h
  have hsaid : twoQueriers.said.filter (· ≠ heartbeat) =
      twoQueriers.responser.responded Utf8.decodeReplace twoQueriers.askedChunks fun q => '!' :: q := by
    rw [responded_tickets Qt.decodes_decodeReplace hadmitted hserved fun _ => rfl]
    decide
  have hall := questions_answered (fun _ => []) Qt.decodes_decodeReplace (fun q => '!' :: q) twoQueriers hadmitted hserved
    (fun q => '!' :: q) (fun _ => rfl) hsaid
  exact ⟨(hall true).trans (by decide), (hall false).trans (by decide)⟩

end Exchange
end KnotLink
