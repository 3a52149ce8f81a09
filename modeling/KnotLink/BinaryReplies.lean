import KnotLink.Lib.Encoding
import KnotLink.Java.Send
import KnotLink.Js.Send
import KnotLink.PyQt.TcpClient
import KnotLink.ReplyRouting
/-!
# Replies that are no text

A reply may be given as bytes. Java puts them behind the question id and the delimiter as they are. JavaScript and
PyQt make a text of them, put the question id in front and encode the whole: `toString` replaces what is no UTF-8 and
`decode` raises at it. So the bytes of a reply are sent exactly if they are the UTF-8 of some text
(`binary_reply_iff`).
-/
namespace KnotLink
open Lib

/-- The message of a reply. -/
def replyMessage (questionID data : Bytes) : Bytes := questionID ++ Python.DELIMITER ++ data

theorem replyMessage_inj {questionID data data' : Bytes} :
    replyMessage questionID data = replyMessage questionID data' ↔ data = data' := List.append_right_inj _

theorem replyMessage_encode (key text : List Char) :
    replyMessage (Utf8.encode key) (Utf8.encode text) = Utf8.encode (key ++ (delimiter ++ text)) := by
  rw [replyMessage, Python.delimiter_encode, List.append_assoc, Utf8.encode_append, Utf8.encode_append, delimiter]

namespace Js
open Encoding

/-- `Buffer.from(text, 'utf-8')`; a string is its UTF-16 code units. -/
def bufferFrom (text : List UInt16) : Bytes := Utf8.encode (decode16 '\uFFFD' text)

/-- `data.toString('utf-8')`. -/
def bufferToString (data : Bytes) : List UInt16 := utf16.encode (Utf8.decodeReplace data)

/-- The `data` of `sendBack`, which is a string or a `Buffer`. -/
inductive Reply where
  | string (text : List UInt16)
  | buffer (bytes : Bytes)
  deriving DecidableEq, Repr

namespace OpenSocketResponser

/-- The `response` of `sendBack` (OpenSocketResponser.js:64-67). -/
def response (data : Reply) (questionID : List UInt16) : List UInt16 :=
  let data := match data with
    | .string text => bufferFrom text
    | .buffer bytes => bytes
  questionID ++ utf16.encode delimiter ++ bufferToString data

/-- `sendBack` (OpenSocketResponser.js:63). -/
def sendBack (tcpClient : Writer) (data : Reply) (questionID : List UInt16) : Writer × Except Error Unit :=
  tcpClient.sendData (bufferFrom (response data questionID))

/-- What is sent: the data decoded and encoded again. -/
theorem bufferFrom_response (data : Bytes) (questionID : List UInt16) :
    bufferFrom (response (.buffer data) questionID) =
      replyMessage (bufferFrom questionID) (Utf8.encode (Utf8.decodeReplace data)) := by
  have hunits : response (.buffer data) questionID =
      questionID ++ utf16.encode ('&' :: ("*&".toList ++ Utf8.decodeReplace data)) := by
    rw [response, bufferToString, List.append_assoc, ← encode_append]
    rfl
  rw [hunits, bufferFrom, decode16_append_encode (by decide), bufferFrom, replyMessage_encode, Utf8.encode_append,
    Utf8.encode_append]
  rfl

/-- A call that throws nothing and writes the reply with these bytes. -/
def Sent (tcpClient : Writer) (data : Bytes) (questionID : List UInt16) : Prop :=
  let sent := sendBack tcpClient (.buffer data) questionID
  sent.2 = .ok () ∧ sent.1.written = tcpClient.written ++ frame (replyMessage (bufferFrom questionID) data)

theorem sent_iff (tcpClient : Writer) (data : Bytes) (questionID : List UInt16) :
    Sent tcpClient data questionID ↔ tcpClient.client.connected = true ∧ (∃ text, data = Utf8.encode text) ∧
      (replyMessage (bufferFrom questionID) data).length ≤ MAX_MSG_SIZE := by
  have hsame : bufferFrom (response (.buffer data) questionID) = replyMessage (bufferFrom questionID) data ↔
      ∃ text, data = Utf8.encode text := by
    rw [bufferFrom_response, replyMessage_inj, Utf8.encode_decodeReplace_iff]
  rw [Sent, sendBack, Writer.sendData_frame_iff, hsame]
  constructor
  · rintro ⟨hconn, htext, hlen⟩
    exact ⟨hconn, htext, hsame.2 htext ▸ hlen⟩
  · rintro ⟨hconn, htext, hlen⟩
    exact ⟨hconn, htext, (hsame.2 htext).symm ▸ hlen⟩

end OpenSocketResponser
end Js

namespace PyQt.OpenSocketResponser
open QtSocket Python
variable {κ : Type}

/-- `UnicodeDecodeError` and `UnicodeEncodeError`. -/
inductive UnicodeError where
  | decode
  | encode
  deriving DecidableEq, Repr

/-- `sendBack_a` (OpenSocketResponser.py:47-49). -/
def sendBackA (KLresponser : QtSocket.TcpClient κ) (data : Bytes) (questionID : PyStr) :
    QtSocket.TcpClient κ × Except UnicodeError Unit :=
  match decodeUtf8 data with
  | none => (KLresponser, .error .decode)
  | some text =>
    match encodeUtf8 (questionID ++ str "&*&" ++ text) with
    | none => (KLresponser, .error .encode)
    | some dataR => (TcpClient.sendData KLresponser dataR, .ok ())

theorem sendBackA_encoded (KLresponser : QtSocket.TcpClient κ) {data key : Bytes} {text questionID : PyStr}
    (hdata : encodeUtf8 text = some data) (hkey : encodeUtf8 questionID = some key) :
    sendBackA KLresponser data questionID = (TcpClient.sendData KLresponser (replyMessage key data), .ok ()) := by
  simp only [sendBackA, decodeUtf8_encode hdata, encodeUtf8_append (encodeUtf8_append hkey encodeUtf8_delimiter) hdata]
  rfl

/-- A call that raises nothing and writes the reply with these bytes. -/
def Sent (KLresponser : QtSocket.TcpClient κ) (data : Bytes) (questionID : PyStr) : Prop :=
  let sent := sendBackA KLresponser data questionID
  sent.2 = .ok () ∧ ∃ key, encodeUtf8 questionID = some key ∧
    sent.1.written = KLresponser.written ++ [frame (replyMessage key data)]

theorem sent_iff (KLresponser : QtSocket.TcpClient κ) (data : Bytes) (questionID : PyStr) :
    Sent KLresponser data questionID ↔ KLresponser.connected = true ∧ (∃ text, data = Utf8.encode text) ∧
      ∃ key, encodeUtf8 questionID = some key ∧ (replyMessage key data).length ≤ MAX_MSG_SIZE := by
  constructor
  · rintro ⟨hok, key, hkey, hwritten⟩
    cases htext : decodeUtf8 data with
    | none => simp [sendBackA, htext] at hok
    | some text =>
      have hdata := decodeUtf8_eq_some.1 htext
      rw [sendBackA_encoded KLresponser hdata hkey, PyQt.TcpClient.sendData_frame_iff] at hwritten
      obtain ⟨cs, -, rfl⟩ := encodeUtf8_eq_some.1 hdata
      exact ⟨hwritten.1, ⟨cs, rfl⟩, key, hkey, hwritten.2.2⟩
  · rintro ⟨hconn, ⟨text, rfl⟩, key, hkey, hlen⟩
    rw [Sent, sendBackA_encoded KLresponser (encodeUtf8_text text) hkey]
    exact ⟨rfl, key, hkey, PyQt.TcpClient.sendData_frame_iff.2 ⟨hconn, rfl, hlen⟩⟩

end PyQt.OpenSocketResponser

namespace Java.OpenSocketResponser
open Encoding

/-- `getBytes(StandardCharsets.UTF_8)`; a string is its UTF-16 code units. -/
def getBytes (text : List UInt16) : Bytes := Utf8.encode (decode16 '?' text)

/-- `sendBack` of a `byte[]` (OpenSocketResponser.java:62-68). -/
def sendBack (KLresponser : Writer) (data : Bytes) (questionID : List UInt16) (write : Write) : Writer × Option String :=
  let packet := getBytes (questionID ++ utf16.encode delimiter) ++ data
  KLresponser.sendData packet write

/-- It is the packet of `Java.packet`, of what `getBytes` takes the question id for. -/
theorem packet_getBytes (data : Bytes) (questionID : List UInt16) :
    getBytes (questionID ++ utf16.encode delimiter) ++ data = packet data (decode16 '?' questionID) := by
  have hunits : decode16 '?' (questionID ++ utf16.encode delimiter) = decode16 '?' questionID ++ delimiter :=
    decode16_append_encode (c := '&') (by decide) _ _
  rw [getBytes, hunits, packet, delimiter]

/-- A call that writes the reply with these bytes; no call throws. -/
def Sent (KLresponser : Writer) (data : Bytes) (questionID : List UInt16) (write : Write) : Prop :=
  (sendBack KLresponser data questionID write).1.written =
    KLresponser.written ++ frame (replyMessage (getBytes questionID) data)

theorem sent_iff (KLresponser : Writer) (data : Bytes) (questionID : List UInt16) (write : Write) :
    Sent KLresponser data questionID write ↔ KLresponser.out ≠ none ∧
      (replyMessage (getBytes questionID) data).length ≤ MAX_MSG_SIZE ∧
      write.taken (frame (replyMessage (getBytes questionID) data)) =
        frame (replyMessage (getBytes questionID) data) := by
  have hpacket : getBytes (questionID ++ utf16.encode delimiter) ++ data = replyMessage (getBytes questionID) data := by
    rw [packet_getBytes, packet, Utf8.encode_append, ← Python.delimiter_encode]
    rfl
  rw [Sent, sendBack, hpacket, Writer.sendData_frame_iff]

end Java.OpenSocketResponser

/-- **A reply given as bytes is sent as these bytes** by JavaScript and PyQt exactly if they are the UTF-8 of a text,
and by Java whatever they are; where there is a connection, the message is within the limit, the PyQt question id can
be encoded and the Java stream takes the frame. -/
theorem binary_reply_iff (data : Bytes) :
    (∀ (tcpClient : Js.Writer) (questionID : List UInt16),
      Js.OpenSocketResponser.Sent tcpClient data questionID ↔
        tcpClient.client.connected = true ∧ (∃ text, data = Utf8.encode text) ∧
          (replyMessage (Js.bufferFrom questionID) data).length ≤ MAX_MSG_SIZE) ∧
    (∀ (κ : Type) (KLresponser : QtSocket.TcpClient κ) (questionID : Python.PyStr),
      PyQt.OpenSocketResponser.Sent KLresponser data questionID ↔
        KLresponser.connected = true ∧ (∃ text, data = Utf8.encode text) ∧
          ∃ key, Python.encodeUtf8 questionID = some key ∧ (replyMessage key data).length ≤ MAX_MSG_SIZE) ∧
    (∀ (KLresponser : Java.Writer) (questionID : List UInt16) (write : Java.Write),
      let message := replyMessage (Java.OpenSocketResponser.getBytes questionID) data
      Java.OpenSocketResponser.Sent KLresponser data questionID write ↔
        KLresponser.out ≠ none ∧ message.length ≤ MAX_MSG_SIZE ∧ write.taken (frame message) = frame message) :=
  ⟨fun tcpClient => Js.OpenSocketResponser.sent_iff tcpClient data,
    fun _ KLresponser => PyQt.OpenSocketResponser.sent_iff KLresponser data,
    fun KLresponser => Java.OpenSocketResponser.sent_iff KLresponser data⟩

/-- One byte that is no UTF-8: JavaScript sends three bytes in its place, PyQt raises, Java sends it. -/
theorem binary_reply_lost :
    ¬ Js.OpenSocketResponser.Sent ⟨.start, []⟩ [0xFF] (Encoding.utf16.encode ['1']) ∧
    ¬ PyQt.OpenSocketResponser.Sent (⟨true, [], [], ()⟩ : QtSocket.TcpClient Unit) [0xFF] (Python.str "1") ∧
    Java.OpenSocketResponser.Sent ⟨.connected, some []⟩ [0xFF] (Encoding.utf16.encode ['1']) .ok := by
  have hno : ¬ ∃ text, [0xFF] = Utf8.encode text := by
    rintro ⟨text, htext⟩
    have hdecode : Utf8.decodeStrict [0xFF] = some text := Utf8.decodeStrict_eq_some.2 htext
    simp [Utf8.decodeStrict, show Utf8.front? [0xFF] = none by decide] at hdecode
  refine ⟨fun h => ?_, fun h => ?_, ?_⟩
  · exact hno ((Js.OpenSocketResponser.sent_iff _ _ _).1 h).2.1
  · exact hno ((PyQt.OpenSocketResponser.sent_iff _ _ _).1 h).2.1
  · exact (Java.OpenSocketResponser.sent_iff _ _ _ _).2 ⟨by simp, by decide, rfl⟩

end KnotLink
