import KnotLink.Python.ReceiveThread
import KnotLink.Receiver
/-!
# What the Python callback is given

The receive thread beside every other thread: the callback may be set late, disconnect and raise, other threads may
disconnect and fail to send at any time. The callback is given the messages of the bytes that were read, each once and
in order, from the moment it is set; a disconnect by another thread does not touch the buffer, and lets the thread
read one chunk more at most (`handed_over`).
-/
namespace KnotLink.Python.ReceiveThread
open Lib

variable {s t u : ReceiveThread} {a : ReceiveAct} {client : TcpClient} {callback : Bool} {base : Bytes}

/-- A step in which `recv` comes back. -/
def isRecv : ReceiveAct → Bool
  | .recv _ => true
  | _ => false

/-- The bytes a step reads. -/
def bytesOf : ReceiveAct → Bytes
  | .recv (.chunk c) => c
  | _ => []

def readBytes (as : List ReceiveAct) : Bytes := as.flatMap bytesOf

/-- The thread is between two chunks: it has gone through its buffer. -/
def Between : ReceivePc → Prop
  | .loop | .receiving => True
  | .caught fromCallback | .clearing fromCallback => fromCallback = false
  | .parsing | .calling | .ended | .died => False

/-! ## What is taken out of the buffer -/

/-- Of the bytes `base` the frames of `early` were read before there was a callback and those of `late` since then;
the rest is in the buffer. -/
structure Took (callback : Bool) (base : Bytes) (s : ReceiveThread) (early late : List Bytes) : Prop where
  bytes : base = wire.encodeAll (early ++ late) ++ s.client.buffer
  ok : ∀ m ∈ early ++ late, Admissible m
  received : s.client.received = late.filter isMessage
  early : callback = true → early = [] ∧ s.callback = true
  late : s.callback = false → late = []
  drained : Between s.pc → ∀ m r, wireFront s.client.buffer ≠ .frame m r

variable {early late : List Bytes}

/-- A step that reads nothing and takes nothing out of the buffer. -/
theorem Took.keep (hT : Took callback base s early late) (hbuf : u.client.buffer = s.client.buffer)
    (hrec : u.client.received = s.client.received) (hcb : s.callback = true → u.callback = true)
    (hlate : u.callback = false → s.callback = false) (hpc : Between u.pc → Between s.pc) :
    Took callback base u early late where
  bytes := by rw [hbuf]; exact hT.bytes
  ok := hT.ok
  received := hrec.trans hT.received
  early hc := ⟨(hT.early hc).1, hcb (hT.early hc).2⟩
  late hc := hT.late (hlate hc)
  drained hb := by rw [hbuf]; exact hT.drained (hpc hb)

/-- A frame is taken out of the buffer. -/
theorem Took.take (hT : Took callback base s early late) {m r : Bytes} (hf : wireFront s.client.buffer = .frame m r)
    (hbuf : u.client.buffer = r) (hcb : u.callback = s.callback) (hpc : ¬ Between u.pc)
    (hrec : u.client.received = s.client.received ++ if s.callback then [m].filter isMessage else []) :
    ∃ early' late', Took callback base u early' late' := by
  obtain ⟨hm, hb⟩ := wireFront_frame.1 hf
  have hbytes : base = wire.encodeAll (early ++ late ++ [m]) ++ u.client.buffer := by
    rw [Codec.encodeAll_append, List.append_assoc, hbuf]
    simpa [hb] using hT.bytes
  have hok : ∀ x ∈ early ++ late ++ [m], Admissible x := by
    intro x hx
    rcases List.mem_append.1 hx with hx | hx
    · exact hT.ok x hx
    · rwa [List.mem_singleton.1 hx]
  cases hset : s.callback with
  | true =>
    rw [List.append_assoc] at hbytes hok
    refine ⟨early, late ++ [m], hbytes, hok, ?_, fun hc => ⟨(hT.early hc).1, hcb.trans hset⟩, fun hc => ?_,
      fun h => absurd h hpc⟩
    · rw [hrec, hT.received, hset, List.filter_append]
      rfl
    · exact absurd (hcb.symm.trans hc) (by simp [hset])
  | false =>
    obtain rfl := hT.late hset
    rw [List.append_nil] at hbytes hok
    refine ⟨early ++ [m], [], by simpa using hbytes, by simpa using hok, ?_, fun hc => ?_, fun _ => rfl,
      fun h => absurd h hpc⟩
    · rw [hrec, hT.received, hset]
      rfl
    · exact absurd (hset.symm.trans (hT.early hc).2) (by simp)

theorem took_parse (hT : Took callback base s early late) (h : step s .parse = some u) :
    ∃ early' late', Took callback base u early' late' := by
  simp only [step, TcpClient.extract_front] at h
  split at h
  · cases hf : wireFront s.client.buffer with
    | short =>
      rw [hf] at h
      cases h
      exact ⟨early, late, { hT with drained := fun _ m r => by simp [hf] }⟩
    | bad =>
      rw [hf] at h
      cases h
      exact ⟨early, late, { hT with drained := fun _ m r => by simp [hf] }⟩
    | frame m r =>
      rename_i hpc
      rw [hf] at h
      dsimp only at h
      split at h
      · rename_i hm
        cases h
        refine hT.take hf rfl rfl (by simp [Between, hpc]) ?_
        cases s.callback <;> simp [isMessage, hm]
      · rename_i hm
        split at h
        · rename_i hcb
          cases h
          exact hT.take hf rfl rfl (by simp [Between]) (by simp [hcb, isMessage, hm])
        · rename_i hcb
          cases h
          exact hT.take hf rfl rfl (by simp [Between, hpc]) (by simp [hcb])
  · cases h

theorem took_step (hT : Took callback base s early late) (h : step s a = some u) :
    ∃ early' late', Took callback (base ++ bytesOf a) u early' late' := by
  have hnone : Took callback (base ++ []) s early late := by rwa [List.append_nil]
  cases a with
  | recv r =>
    simp only [step] at h
    split at h
    · rename_i hpc
      cases r with
      | error =>
        cases h
        exact ⟨early, late, hnone.keep rfl rfl id id fun _ => by simp [Between, hpc]⟩
      | chunk c =>
        dsimp only at h
        split at h
        · rename_i hc
          cases h
          subst hc
          exact ⟨early, late, hnone.keep rfl rfl id id (by simp [Between])⟩
        · cases h
          refine ⟨early, late, { hT with bytes := ?_, drained := by simp [Between] }⟩
          rw [hT.bytes, List.append_assoc]
          rfl
    · cases h
  | parse =>
    rw [show bytesOf .parse = [] from rfl, List.append_nil]
    exact took_parse hT h
  | check =>
    simp only [step] at h
    split at h <;> cases h
    rename_i hpc
    exact ⟨early, late, hnone.keep rfl rfl id id fun _ => by simp [Between, hpc]⟩
  | callbackDisconnects =>
    simp only [step] at h
    split at h <;> cases h
    exact ⟨early, late, hnone.keep rfl rfl id id id⟩
  | callbackReturns =>
    simp only [step] at h
    split at h <;> cases h
    exact ⟨early, late, hnone.keep rfl rfl id id (by simp [Between])⟩
  | callbackRaises e =>
    simp only [step] at h
    split at h <;> cases h
    exact ⟨early, late, hnone.keep rfl rfl id id (by cases e <;> simp [Between])⟩
  | test =>
    simp only [step] at h
    split at h <;> cases h
    rename_i fromCallback hpc
    refine ⟨early, late, hnone.keep rfl rfl id id ?_⟩
    rw [hpc]
    cases s.client.connected <;> simp [Between]
  | clear =>
    simp only [step] at h
    split at h <;> cases h
    exact ⟨early, late, hnone.keep rfl rfl id id (by simp [Between])⟩
  | setCallback =>
    cases h
    exact ⟨early, late, hnone.keep rfl rfl (fun _ => rfl) (by simp) id⟩
  | disconnect =>
    cases h
    exact ⟨early, late, hnone.keep rfl rfl id id id⟩
  | sendFails =>
    cases h
    exact ⟨early, late, hnone.keep rfl rfl id id id⟩
  | peerLost =>
    cases h
    exact ⟨early, late, hnone.keep rfl rfl id id id⟩

/-- The same over a run. -/
theorem took_run {as : List ReceiveAct} (h : system.Runs (fun _ _ => True) s as t)
    (hT : ∃ early late, Took callback base s early late) :
    ∃ early late, Took callback (base ++ readBytes as) t early late := by
  induction h generalizing base with
  | nil => rwa [readBytes, List.flatMap_nil, List.append_nil]
  | @cons s u t a as _ hst _ ih =>
    obtain ⟨early, late, hT⟩ := hT
    rw [readBytes, List.flatMap_cons, ← List.append_assoc]
    exact ih (took_step hT hst)

/-! ## Once the client is not connected, or the thread is over -/

/-- The client stays as it is, and the thread has one `recv` left at most. -/
theorem lost_step (hc : s.client.connected = false) (h : step s a = some u) :
    u.client.connected = false ∧
      (if u.pc = .receiving then 1 else 0) + (isRecv a).toNat ≤ if s.pc = .receiving then 1 else 0 := by
  cases a with
  | check =>
    simp only [step] at h
    split at h <;> cases h
    exact ⟨hc, by simp [hc, isRecv]⟩
  | recv r =>
    simp only [step] at h
    split at h
    · rename_i hpc
      cases r with
      | error =>
        cases h
        exact ⟨hc, by simp [hpc, isRecv]⟩
      | chunk c =>
        dsimp only at h
        split at h <;> cases h
        · exact ⟨rfl, by simp [hpc, isRecv]⟩
        · exact ⟨hc, by simp [hpc, isRecv]⟩
    · cases h
  | parse =>
    simp only [step] at h
    split at h
    · rename_i hpc
      split at h
      · cases h
        exact ⟨hc, by simp [isRecv]⟩
      · cases h
        exact ⟨rfl, by simp [isRecv]⟩
      · split at h
        · cases h
          exact ⟨hc, by simp [hpc, isRecv]⟩
        · split at h <;> cases h
          · exact ⟨hc, by simp [isRecv]⟩
          · exact ⟨hc, by simp [hpc, isRecv]⟩
    · cases h
  | callbackDisconnects =>
    simp only [step] at h
    split at h <;> cases h
    exact ⟨rfl, Nat.le_refl _⟩
  | callbackReturns =>
    simp only [step] at h
    split at h <;> cases h
    exact ⟨hc, by simp [isRecv]⟩
  | callbackRaises e =>
    simp only [step] at h
    split at h <;> cases h
    exact ⟨hc, by cases e <;> simp [isRecv]⟩
  | test =>
    simp only [step] at h
    split at h <;> cases h
    exact ⟨hc, by simp [hc, isRecv]⟩
  | clear =>
    simp only [step] at h
    split at h <;> cases h
    exact ⟨rfl, by simp [isRecv]⟩
  | setCallback =>
    cases h
    exact ⟨hc, Nat.le_refl _⟩
  | disconnect =>
    cases h
    exact ⟨rfl, Nat.le_refl _⟩
  | sendFails =>
    cases h
    exact ⟨rfl, Nat.le_refl _⟩
  | peerLost =>
    cases h
    exact ⟨hc, Nat.le_refl _⟩

/-- Only other threads have steps, and they hand nothing over. -/
theorem over_step (hover : s.pc = .ended ∨ s.pc = .died) (h : step s a = some u) :
    u.pc = s.pc ∧ u.client.received = s.client.received := by
  cases a with
  | setCallback | disconnect | sendFails | peerLost =>
    cases h
    exact ⟨rfl, rfl⟩
  | check | recv r | parse | callbackDisconnects | callbackReturns | callbackRaises e | test | clear =>
    rcases hover with hpc | hpc <;> simp [step, hpc] at h

/-! ## Every run -/

/-- Of the messages read, the callback was given those that came behind the ones read before it was set, and has
still to be given the `rest`: none between two chunks. -/
def Handed (callback : Bool) (read : Bytes) (s : ReceiveThread) : Prop :=
  ∃ early rest, messages read = early ++ s.client.received ++ rest ∧ (callback = true → early = []) ∧
    (Between s.pc → rest = [])

theorem Took.handed (hT : Took callback base s early late) : Handed callback base s := by
  obtain ⟨ns, r, hs⟩ := wire.split_exists s.client.buffer
  have hsplit : wire.Split base (early ++ late ++ ns) r := by
    refine ⟨?_, ?_, hs.stop⟩
    · rw [Codec.encodeAll_append, List.append_assoc, ← hs.eq]
      exact hT.bytes
    · intro m hm
      rcases List.mem_append.1 hm with hm | hm
      · exact hT.ok m hm
      · exact hs.ok m hm
  refine ⟨early.filter isMessage, ns.filter isMessage, ?_, fun hc => by simp [(hT.early hc).1], fun hb => ?_⟩
  · rw [messages_split hsplit, List.filter_append, List.filter_append, hT.received]
  · obtain ⟨rfl, -⟩ := hs.unique (.nil (hT.drained hb))
    rfl

/-- **The callback is given what was read**, over every order of the thread's steps and those of others, and every
callback. Once the client is not connected one chunk more is read at most; once the thread is over nothing more is
handed over. -/
theorem handed_over {as : List ReceiveAct} (hbuf : client.buffer = []) (hrec : client.received = [])
    (h : system.Runs (fun _ _ => True) (start client callback) as s) :
    Handed callback (readBytes as) s ∧
    (s.client.connected = false → ∀ bs t, system.Runs (fun _ _ => True) s bs t → bs.countP isRecv ≤ 1) ∧
    (s.pc = .ended ∨ s.pc = .died → ∀ bs t, system.Runs (fun _ _ => True) s bs t →
      t.client.received = s.client.received) := by
  have hstart : Took callback [] (start client callback) [] [] := by
    refine ⟨hbuf.symm, by simp, hrec, fun hc => ⟨rfl, hc⟩, fun _ => rfl, fun _ m r => ?_⟩
    rw [show (start client callback).client.buffer = [] from hbuf, wireFront_nil]
    simp
  obtain ⟨early, late, hT⟩ := took_run h ⟨[], [], hstart⟩
  refine ⟨hT.handed, fun hc bs t hrun => ?_, fun hover bs t hrun => ?_⟩
  · have hle := hrun.countP_le (I := fun t => t.client.connected = false)
      (m := fun t => if t.pc = .receiving then 1 else 0) (fun hc _ hst => lost_step hc hst) hc
    have hone : (if s.pc = .receiving then 1 else 0) ≤ 1 := by split <;> omega
    omega
  · have hinv : t.pc = s.pc ∧ t.client.received = s.client.received := by
      apply hrun.invariant (I := fun t => t.pc = s.pc ∧ t.client.received = s.client.received)
      · rintro v a u ⟨hpc, hr⟩ - hst
        obtain ⟨hpc', hr'⟩ := over_step (by rwa [hpc]) hst
        exact ⟨hpc'.trans hpc, hr'.trans hr⟩
      · exact ⟨rfl, rfl⟩
    exact hinv.2

/-- A message before there is a callback, and a chunk that `recv` returns when another thread has disconnected. -/
def disconnectedMeanwhile : List ReceiveAct :=
  [.check, .recv (.chunk (frame (ascii "a"))), .parse, .parse, .setCallback, .check, .disconnect,
    .recv (.chunk (frame (ascii "b") ++ frame (ascii "c"))), .parse, .callbackReturns, .parse, .callbackReturns, .parse]

theorem handed_over_disconnected : ∃ s : ReceiveThread,
    system.Runs (fun _ _ => True) (start .fresh false) disconnectedMeanwhile s ∧
    s.client.connected = false ∧ s.client.received = [ascii "b", ascii "c"] ∧
    Handed false (readBytes disconnectedMeanwhile) s ∧
    ∀ bs t, system.Runs (fun _ _ => True) s bs t → bs.countP isRecv ≤ 1 := by
  obtain ⟨s, hrun, hc, hrec⟩ := system.exists_run (fun _ _ => True) (start .fresh false) disconnectedMeanwhile
    (fun s => s.client.connected = false ∧ s.client.received = [ascii "b", ascii "c"]) (by decide +kernel)
  obtain ⟨hhanded, hlost, -⟩ := handed_over rfl rfl hrun
  exact ⟨s, hrun, hc, hrec, hhanded, hlost hc⟩

end KnotLink.Python.ReceiveThread
