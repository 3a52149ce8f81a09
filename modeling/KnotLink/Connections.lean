import KnotLink.Lib.Run
import KnotLink.Qt.TcpClient
import KnotLink.PyQt.TcpClient
/-!
# One client, one connection after another

A client goes through its connections with one buffer. A connection is isolated, whatever arrives on it, exactly
if the buffer is empty when it begins: bytes that an earlier connection has left can be made to show.
-/
namespace KnotLink
open Lib QtSocket

/-! ## Bytes left in front of a stream -/

theorem drained_nil (m r : Bytes) : wireFront [] ≠ .frame m r := nofun

theorem length_encode_le {m : Bytes} {ns : List Bytes} (h : m ∈ ns) :
    (frame m).length ≤ (wire.encodeAll ns).length := by
  obtain ⟨xs, ys, rfl⟩ := List.append_of_mem h
  rw [Codec.encodeAll_append, Codec.encodeAll_cons, List.length_append, List.length_append, wire_encode]
  omega

theorem split_frame {m : Bytes} (h : Admissible m) : wire.Split (frame m) [m] [] := by
  have hsplit : wire.Split (wire.encodeAll [m]) [m] [] := Codec.split_encodeAll fun x hx => by
    rw [List.mem_singleton.1 hx]
    exact h
  simpa using hsplit

/-- A message of the same length that is not the heartbeat response. -/
theorem exists_other {m : Bytes} (h : Admissible m) : ∃ m0 x, m = m0 ++ [x] ∧
    Admissible (m0 ++ [0x41]) ∧ isMessage (m0 ++ [0x41]) = true := by
  have hne : m ≠ [] := by
    rintro rfl
    exact absurd h.1 (by decide)
  refine ⟨m.dropLast, m.getLast hne, (List.dropLast_concat_getLast hne).symm, ?_, ?_⟩
  · have hlen := List.length_pos_iff.2 hne
    obtain ⟨h1, h2⟩ := h
    rw [Admissible, List.length_append, List.length_dropLast, List.length_singleton]
    omega
  · refine decide_eq_true fun heq => ?_
    have hlast := congrArg List.getLast? heq
    rw [List.getLast?_concat] at hlast
    exact absurd hlast (by decide)

/-- **Leftovers show.** If bytes without a whole frame are left, some stream that follows gives other messages
behind them than alone. -/
theorem leftover {b : Bytes} (hne : b ≠ []) (hstop : ∀ m r, wireFront b ≠ .frame m r) :
    ∃ c, c ≠ [] ∧ ∀ ms r ns r', wire.Split (b ++ c) ms r → wire.Split c ns r' →
      ms.filter isMessage ≠ ns.filter isMessage := by
  by_cases hpart : ∃ m d, Admissible m ∧ b ++ d = frame m
  · -- the rest of a frame: alone it is too short for this message
    obtain ⟨m, d, hm, hbd⟩ := hpart
    obtain ⟨m0, x, rfl, hm1, hmsg⟩ := exists_other hm
    rcases List.eq_nil_or_concat d with rfl | ⟨d0, y, rfl⟩
    · rw [List.append_nil] at hbd
      exact absurd (wireFront_frame.2 ⟨hm, by rw [hbd, List.append_nil]⟩) (hstop _ [])
    · have hfront : b ++ d0 = MAGIC ++ toBE 4 (m0 ++ [x]).length ++ m0 := by
        rw [List.concat_eq_append, frame, ← List.append_assoc, ← List.append_assoc] at hbd
        exact (List.append_inj' hbd rfl).1
      have hframe : b ++ (d0 ++ [0x41]) = frame (m0 ++ [0x41]) := by
        rw [← List.append_assoc, hfront, frame, List.length_append, List.length_append, List.append_assoc]
        rfl
      refine ⟨d0 ++ [0x41], by simp, fun ms r ns r' hms hns heq => ?_⟩
      obtain ⟨rfl, -⟩ := hms.unique (hframe ▸ split_frame hm1)
      have hin : m0 ++ [0x41] ∈ ns := by
        have : m0 ++ [0x41] ∈ ns.filter isMessage := by simp [← heq, hmsg]
        exact (List.mem_filter.1 this).1
      have hshort := length_encode_le hin
      have hall := congrArg List.length hns.eq
      rw [← hframe] at hshort
      simp only [List.length_append] at hshort hall
      have hpos := List.length_pos_iff.2 hne
      omega
  · -- nothing behind these bytes is ever read
    have hm : Admissible [0x41] := by decide
    refine ⟨frame [0x41], frame_ne_nil _, fun ms r ns r' hms hns => ?_⟩
    obtain ⟨rfl, -⟩ := hns.unique (split_frame hm)
    cases ms with
    | nil => simp [isMessage, heartbeatResponse, ascii]
    | cons m ms =>
      have heq := hms.eq
      rw [Codec.encodeAll_cons, List.append_assoc, wire_encode] at heq
      have hok := hms.ok m List.mem_cons_self
      rcases List.append_eq_append_iff.1 heq with ⟨a, ha, -⟩ | ⟨a, ha, -⟩
      · exact absurd ⟨m, a, hok, ha.symm⟩ hpart
      · exact absurd (wireFront_frame.2 ⟨hok, ha⟩) (hstop _ _)

/-! ## Connections -/

/-- A client with its own way to begin a connection and to end one. -/
structure Sdk where
  frameEnd : FrameEnd
  connectToServer : TcpClient (List Bytes) → Bool → TcpClient (List Bytes)
  /-- A local disconnect, if there is one. -/
  disconnect : TcpClient (List Bytes) → Option (TcpClient (List Bytes))
  connected : ∀ s, (connectToServer s true).connected = true ∧ (connectToServer s true).buffer = s.buffer ∧
    (connectToServer s true).slots = s.slots
  unconnected : ∀ s, connectToServer s false = s
  disconnected : ∀ {s u}, disconnect s = some u → u.connected = false ∧ (u.buffer = s.buffer ∨ u.buffer = []) ∧
    u.slots = s.slots

/-- A client, the bytes received on the connection it has or had last, and the messages emitted before. -/
structure Connections where
  client : TcpClient (List Bytes)
  stream : Bytes
  before : List Bytes
  deriving DecidableEq, Repr

inductive ConnectionAct where
  | connectToServer (waitForConnected : Bool)
  | readyRead (newData : Bytes)
  | peerCloses
  | disconnect
  deriving DecidableEq, Repr

namespace Connections

def start : Connections := ⟨.new [], [], []⟩

def step (sdk : Sdk) (s : Connections) : ConnectionAct → Option Connections
  | .connectToServer waitForConnected =>
    if s.client.connected then none
    else if waitForConnected then some ⟨sdk.connectToServer s.client true, [], s.client.slots⟩
    else some { s with client := sdk.connectToServer s.client false }
  | .readyRead newData =>
    if s.client.connected ∧ newData ≠ [] then some { s with
      client := s.client.readyRead sdk.frameEnd TcpClient.record newData
      stream := s.stream ++ newData }
    else none
  | .peerCloses => if s.client.connected then some { s with client := s.client.peerCloses } else none
  | .disconnect => (sdk.disconnect s.client).map fun client => { s with client }

def system (sdk : Sdk) : System Connections ConnectionAct := ⟨step sdk⟩

/-- What was emitted on the connection are the messages of its own bytes. -/
def Isolated (s : Connections) : Prop :=
  ∃ ms r, wire.Split s.stream ms r ∧ s.client.slots = s.before ++ ms.filter isMessage

/-- The connection is isolated, and stays so whatever arrives on it. -/
def StaysIsolated (sdk : Sdk) (s : Connections) : Prop :=
  ∀ (chunks : List Bytes) (t : Connections), (system sdk).Runs (fun _ _ => True) s (chunks.map .readyRead) t → Isolated t

/-- A connection begins with an empty buffer. -/
def Cleared (s : Connections) : ConnectionAct → Prop
  | .connectToServer waitForConnected => waitForConnected = true → s.client.buffer = []
  | _ => True

instance (s : Connections) : (a : ConnectionAct) → Decidable (Cleared s a)
  | .connectToServer _ => inferInstanceAs (Decidable (_ → _))
  | .readyRead _ | .peerCloses | .disconnect => inferInstanceAs (Decidable True)

/-- Isolated, and the buffer holds what is left of this connection's bytes. -/
def Clean (s : Connections) : Prop :=
  ∃ ms r, wire.Split s.stream ms r ∧ s.client.slots = s.before ++ ms.filter isMessage ∧
    (s.client.connected = true → s.client.buffer = r)

/-- No whole frame is left in front of the buffer. -/
def Drained (s : Connections) : Prop := ∀ m r, wireFront s.client.buffer ≠ .frame m r

variable {sdk : Sdk} {s u : Connections} {a : ConnectionAct}

theorem Clean.isolated (h : Clean s) : Isolated s := by
  obtain ⟨ms, r, hs, hd, -⟩ := h
  exact ⟨ms, r, hs, hd⟩

/-- What the next chunk makes of the buffer. -/
theorem readyRead_split (e : FrameEnd) {c : TcpClient (List Bytes)} (hc : c.connected = true) {d : Bytes} (hd : d ≠ [])
    {ms : List Bytes} {r : Bytes} (hs : wire.Split (c.buffer ++ d) ms r) :
    (c.readyRead e TcpClient.record d).slots = c.slots ++ ms.filter isMessage ∧
      ((c.readyRead e TcpClient.record d).connected = true → (c.readyRead e TcpClient.record d).buffer = r) := by
  have h0 : TcpClient.view.Follows c.slots c ⟨c.buffer, [], true⟩ := ⟨hc, fun _ => rfl, (List.append_nil _).symm⟩
  have h := TcpClient.readyRead_follows e h0 hd
  obtain ⟨hgot, hbuf, hup⟩ := wire.drain_split hs []
  have hfeed : wire.feed ⟨c.buffer, [], true⟩ d = wire.drain.run ⟨c.buffer ++ d, [], true⟩ := rfl
  rw [hfeed] at h
  refine ⟨h.delivered.trans ?_, fun hconn => ?_⟩
  · rw [hgot, List.nil_append]
    rfl
  · exact (h.buffer (h.up.symm.trans hconn)).trans hbuf

theorem Clean.readyRead (h : Clean s) {d : Bytes} (hst : step sdk s (.readyRead d) = some u) : Clean u := by
  obtain ⟨ms, r, hs, hslots, hbuf⟩ := h
  simp only [step] at hst
  split at hst
  · rename_i hup
    cases hst
    obtain ⟨ns, r', hns⟩ := wire.split_exists (r ++ d)
    obtain ⟨hgot, hrest⟩ := readyRead_split sdk.frameEnd hup.1 hup.2 (by rw [hbuf hup.1]; exact hns)
    refine ⟨ms ++ ns, r', hs.append hns, ?_, hrest⟩
    rw [hgot, hslots, List.filter_append, List.append_assoc]
  · cases hst

theorem Clean.staysIsolated (h : Clean s) : StaysIsolated sdk s := by
  intro chunks t hrun
  induction chunks generalizing s with
  | nil =>
    cases hrun
    exact h.isolated
  | cons c cs ih =>
    cases hrun with
    | cons _ hst hrest => exact ih (h.readyRead hst) hrest

/-- A connection that is over receives nothing. -/
theorem staysIsolated_of_closed (hc : s.client.connected = false) (h : Isolated s) : StaysIsolated sdk s := by
  rintro (_ | ⟨c, cs⟩) t hrun
  · cases hrun
    exact h
  · cases hrun with
    | cons _ hst hrest =>
      change step sdk s (.readyRead c) = _ at hst
      simp [step, hc] at hst

theorem StaysIsolated.isolated (h : StaysIsolated sdk s) : Isolated s := h [] s .nil

/-- A connection that begins with bytes in the buffer can be disturbed. -/
theorem not_staysIsolated (hd : Drained s) (hne : s.client.buffer ≠ []) :
    ¬ StaysIsolated sdk ⟨sdk.connectToServer s.client true, [], s.client.slots⟩ := by
  intro h
  obtain ⟨hconn, hbuf, hslots⟩ := sdk.connected s.client
  obtain ⟨c, hc, hother⟩ := leftover hne hd
  obtain ⟨ms, r, hms⟩ := wire.split_exists (s.client.buffer ++ c)
  obtain ⟨ns, r', hns, heq⟩ := h [c] _ (.cons trivial (if_pos ⟨hconn, hc⟩) .nil)
  obtain ⟨hgot, -⟩ := readyRead_split sdk.frameEnd hconn hc (by rw [hbuf]; exact hms)
  rw [hgot, hslots] at heq
  exact hother ms r ns r' hms hns (List.append_cancel_left heq)

theorem isolated_step (hI : Drained s) (hP : StaysIsolated sdk s) (h : step sdk s a = some u) :
    Drained u ∧ (StaysIsolated sdk u ↔ Cleared s a) := by
  cases a with
  | connectToServer waitForConnected =>
    simp only [step] at h
    split at h
    · cases h
    · split at h
      · rename_i hw
        cases h
        obtain ⟨-, hbuf, hslots⟩ := sdk.connected s.client
        refine ⟨fun m r => by rw [hbuf]; exact hI m r, fun hu _ => ?_, fun hc => ?_⟩
        · by_contra hne
          exact not_staysIsolated hI hne hu
        · have hclean : Clean ⟨sdk.connectToServer s.client true, [], s.client.slots⟩ :=
            ⟨[], [], .nil drained_nil, by simpa using hslots, fun _ => hbuf.trans (hc hw)⟩
          exact hclean.staysIsolated
      · rename_i hw
        rw [sdk.unconnected] at h
        cases h
        exact ⟨hI, iff_of_true hP fun h => absurd h hw⟩
  | readyRead d =>
    have hst : (system sdk).step s (.readyRead d) = some u := h
    simp only [step] at h
    split at h
    · rename_i hup
      cases h
      refine ⟨?_, iff_of_true (fun chunks t hrun => hP (d :: chunks) t (.cons trivial hst hrun)) trivial⟩
      simp only [Drained, TcpClient.readyRead, hup.1, if_true, TcpClient.readData, hup.2, if_false]
      exact TcpClient.drained_processBuffer _ _ _
    · cases h
  | peerCloses =>
    simp only [step] at h
    split at h
    · cases h
      exact ⟨hI, iff_of_true (staysIsolated_of_closed rfl hP.isolated) trivial⟩
    · cases h
  | disconnect =>
    obtain ⟨client, hcl, rfl⟩ := Option.map_eq_some_iff.1 h
    obtain ⟨hdown, hbuf, hslots⟩ := sdk.disconnected hcl
    have hiso : Isolated { s with client } := by
      obtain ⟨ms, r, hs, heq⟩ := hP.isolated
      exact ⟨ms, r, hs, hslots.trans heq⟩
    refine ⟨?_, iff_of_true (staysIsolated_of_closed hdown hiso) trivial⟩
    rcases hbuf with hbuf | hbuf
    · intro m r
      rw [hbuf]
      exact hI m r
    · rw [Drained, hbuf]
      exact drained_nil

/-- Each step of a run keeps its connection isolated exactly if connections begin with an empty buffer. -/
theorem staysIsolated_throughout_iff {as : List ConnectionAct} {t : Connections}
    (h : (system sdk).Runs (fun _ _ => True) start as t) :
    (system sdk).Throughout (StaysIsolated sdk) start as ↔ (system sdk).Runs Cleared start as t := by
  have hclean : Clean start := ⟨[], [], .nil drained_nil, rfl, nofun⟩
  exact h.throughout_iff_runs (fun hI hP hst => isolated_step hI hP hst) drained_nil hclean.staysIsolated

end Connections

/-! ## Qt and PyQt -/

def Qt.sdk : Sdk where
  frameEnd := Qt.frameEnd
  connectToServer := Qt.TcpClient.connectToServer
  disconnect _ := none
  connected _ := ⟨rfl, rfl, rfl⟩
  unconnected _ := rfl
  disconnected h := by cases h

def PyQt.sdk : Sdk where
  frameEnd := PyQt.frameEnd
  connectToServer s waitForConnected := (PyQt.TcpClient.connectToServer s waitForConnected).2
  disconnect s := some (PyQt.TcpClient.disconnect s)
  connected _ := ⟨rfl, rfl, rfl⟩
  unconnected _ := rfl
  disconnected h := by
    cases h
    exact ⟨rfl, .inr rfl, rfl⟩

namespace Connections

/-- **Throughout a run of the Qt client, and of the PyQt client, every connection is isolated, whatever arrives
on it, exactly if** every connection begins with an empty buffer. -/
theorem connections_isolated_iff {as : List ConnectionAct} {t : Connections}
    (h : (system Qt.sdk).Runs (fun _ _ => True) start as t) {bs : List ConnectionAct} {v : Connections}
    (h' : (system PyQt.sdk).Runs (fun _ _ => True) start bs v) :
    ((system Qt.sdk).Throughout (StaysIsolated Qt.sdk) start as ↔ (system Qt.sdk).Runs Cleared start as t) ∧
    ((system PyQt.sdk).Throughout (StaysIsolated PyQt.sdk) start bs ↔ (system PyQt.sdk).Runs Cleared start bs v) :=
  ⟨staysIsolated_throughout_iff h, staysIsolated_throughout_iff h'⟩

/-- Between the connections nothing is left. -/
def nothingLeft : List ConnectionAct :=
  [.connectToServer true, .readyRead (MAGIC ++ [0, 0]), .readyRead [0, 1, 0x41], .peerCloses,
    .connectToServer false, .connectToServer true, .readyRead (frame [0x42])]

/-- `disconnect` clears what is left. -/
def disconnected : List ConnectionAct :=
  [.connectToServer true, .readyRead (MAGIC ++ [0, 0]), .disconnect, .connectToServer true, .readyRead (frame [0x42])]

theorem connections_isolated_iff_cleared :
    (∃ t, (system Qt.sdk).Runs Cleared start nothingLeft t ∧
      (system Qt.sdk).Throughout (StaysIsolated Qt.sdk) start nothingLeft) ∧
    ∃ v, (system PyQt.sdk).Runs Cleared start disconnected v ∧
      (system PyQt.sdk).Throughout (StaysIsolated PyQt.sdk) start disconnected := by
  obtain ⟨t, hrun, -⟩ := (system Qt.sdk).exists_run Cleared start nothingLeft (fun _ => True) (by decide +kernel)
  obtain ⟨v, hrun', -⟩ := (system PyQt.sdk).exists_run Cleared start disconnected (fun _ => True) (by decide +kernel)
  obtain ⟨hqt, hpyqt⟩ := connections_isolated_iff (hrun.mono fun _ _ _ => trivial) (hrun'.mono fun _ _ _ => trivial)
  exact ⟨⟨t, hrun, hqt.2 hrun⟩, v, hrun', hpyqt.2 hrun'⟩

/-- Six bytes of a frame, the peer closes, and the first message of the next connection is not emitted. -/
theorem message_suppressed :
    (∃ as t, (system Qt.sdk).Runs (fun _ _ => True) start as t ∧ ¬ Isolated t) ∧
    ∃ as t, (system PyQt.sdk).Runs (fun _ _ => True) start as t ∧ ¬ Isolated t := by
  have hsuppressed : ∀ t : Connections, t.stream = frame [0x41] ∧ t.client.slots = t.before → ¬ Isolated t := by
    rintro t ⟨hstream, hslots⟩ ⟨ms, r, hs, heq⟩
    rw [hstream] at hs
    obtain ⟨rfl, -⟩ := hs.unique (split_frame (by decide))
    rw [hslots] at heq
    have := congrArg List.length heq
    simp [isMessage, heartbeatResponse, ascii] at this
  constructor
  · obtain ⟨t, hrun, ht⟩ := (system Qt.sdk).exists_run (fun _ _ => True) start
      [.connectToServer true, .readyRead (MAGIC ++ [0, 0]), .peerCloses, .connectToServer true,
        .readyRead (frame [0x41])] (fun t => t.stream = frame [0x41] ∧ t.client.slots = t.before) (by decide +kernel)
    exact ⟨_, t, hrun, hsuppressed t ht⟩
  · obtain ⟨t, hrun, ht⟩ := (system PyQt.sdk).exists_run (fun _ _ => True) start
      [.connectToServer true, .readyRead (MAGIC ++ [0, 0]), .peerCloses, .connectToServer true,
        .readyRead (frame [0x41])] (fun t => t.stream = frame [0x41] ∧ t.client.slots = t.before) (by decide +kernel)
    exact ⟨_, t, hrun, hsuppressed t ht⟩

end Connections
end KnotLink
