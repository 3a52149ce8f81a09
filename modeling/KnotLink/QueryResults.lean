import KnotLink.Qt.Querier
import KnotLink.PyQt.Querier
/-!
# What `query_l` returns, in Qt and PyQt

Both return what the last message of a chunk is: the nested event loop ends when the `readData` that has called
`quit` returns, and until then every message of the chunk comes through.
-/
namespace KnotLink
open Lib QtSocket

/-- **However the messages are cut into chunks, `query_l` returns the first one and uses no other, exactly if** the
chunk that completes it completes no other, and in PyQt the message is UTF-8. -/
theorem query_l_first_iff {b : Bytes} (hb : ∀ m r, wireFront b ≠ .frame m r) {chunks : List Bytes}
    (hne : ∀ c ∈ chunks, c ≠ []) {m : Bytes} {later : List Bytes} (hm : messages (b ++ chunks.flatten) = m :: later)
    (fromUtf8 : Bytes → List Char) {s : TcpClient Qt.OpenSocketQuerier} (hs : s.connected = true ∧ s.buffer = b)
    (question : List Char) {v w : TcpClient PyQt.OpenSocketQuerier} (hv : v.connected = true ∧ v.buffer = b)
    {data : Python.PyStr} (hsent : PyQt.OpenSocketQuerier.ask v data = some w) :
    ((∃ t, Qt.OpenSocketQuerier.queryL fromUtf8 s question chunks = some ([fromUtf8 m], t)) ↔
      TcpClient.Single b chunks) ∧
    ((∃ text t, Python.decodeUtf8 m = some text ∧ PyQt.OpenSocketQuerier.queryL v data chunks = .returned [text] t) ↔
      (Python.decodeUtf8 m).isSome ∧ TcpClient.Single b chunks) := by
  obtain ⟨hconn, rfl⟩ := hs
  obtain ⟨hconn', hbuf⟩ := hv
  refine ⟨Qt.OpenSocketQuerier.queryL_first_iff hconn hb hne hm question, ?_⟩
  rw [← hbuf] at hb hm ⊢
  exact PyQt.OpenSocketQuerier.queryL_first_iff hsent hconn' hb hne hm

/-- The length is in the buffer; the message comes with a part of the next frame, then the rest. -/
theorem query_l_first_iff_cut :
    (∃ t, Qt.OpenSocketQuerier.queryL Utf8.decodeReplace ⟨true, MAGIC, [], ⟨[], [], false, [], []⟩⟩ ['q']
      [[0, 0, 0, 1, 0x41] ++ MAGIC, [0, 0, 0, 1, 0x42]] = some ([Utf8.decodeReplace [0x41]], t)) ∧
    ∃ text t, Python.decodeUtf8 [0x41] = some text ∧
      PyQt.OpenSocketQuerier.queryL ⟨true, MAGIC, [], ⟨[], [], false, [], []⟩⟩ (Python.str "q")
        [[0, 0, 0, 1, 0x41] ++ MAGIC, [0, 0, 0, 1, 0x42]] = .returned [text] t := by
  have hsent : (PyQt.OpenSocketQuerier.ask ⟨true, MAGIC, [], ⟨[], [], false, [], []⟩⟩ (Python.str "q")).isSome := by
    decide +kernel
  obtain ⟨w, hsent⟩ := Option.isSome_iff_exists.1 hsent
  have hm : messages (MAGIC ++ [[0, 0, 0, 1, 0x41] ++ MAGIC, [0, 0, 0, 1, 0x42]].flatten) = [[0x41], [0x42]] := by
    decide +kernel
  have hsingle : TcpClient.Single MAGIC [[0, 0, 0, 1, 0x41] ++ MAGIC, [0, 0, 0, 1, 0x42]] := by decide +kernel
  obtain ⟨hqt, hpyqt⟩ := query_l_first_iff (b := MAGIC) nofun (by decide) hm Utf8.decodeReplace
    (s := ⟨true, MAGIC, [], ⟨[], [], false, [], []⟩⟩) ⟨rfl, rfl⟩ ['q'] ⟨rfl, rfl⟩ hsent
  exact ⟨hqt.2 hsingle, hpyqt.2 ⟨by decide +kernel, hsingle⟩⟩

/-- Two frames in one chunk: the second message is used, and returned. -/
theorem second_message_returned :
    messages (frame [0x41] ++ frame [0x42]) = [[0x41], [0x42]] ∧
    (∃ t, Qt.OpenSocketQuerier.queryL Utf8.decodeReplace ⟨true, [], [], ⟨[], [], false, [], []⟩⟩ ['q']
      [frame [0x41] ++ frame [0x42]] = some ([['A'], ['B']], t)) ∧
    ∃ t, PyQt.OpenSocketQuerier.queryL ⟨true, [], [], ⟨[], [], false, [], []⟩⟩ (Python.str "q")
      [frame [0x41] ++ frame [0x42]] = .returned [Python.str "A", Python.str "B"] t := by
  refine ⟨by decide +kernel, ⟨⟨true, [], [frame (ascii "-&*&q")], ⟨[], [], false, [], []⟩⟩, ?_⟩,
    ⟨true, [], [frame (ascii "-&*&q")], ⟨[], [], false, [[0x42]], [Python.str "B"]⟩⟩, ?_⟩
  · decide +kernel
  · decide +kernel

end KnotLink
