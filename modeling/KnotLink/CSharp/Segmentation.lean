import KnotLink.CSharp.TcpClient
/-!
# When the C# receive path survives a cut

While every chunk is written at the end of the stream the loop follows the codec (`readStep_follows`). It
is written at the end exactly when at most a header was left over, because `Position` is then
`min 8 Length` (`HeaderRead`). Any other write loses bytes, and a lost byte never comes back: the frames
extracted and the bytes still held weigh no more than what was written (`readChunks_weight_le`).
-/
namespace KnotLink.CSharp
open Lib
namespace ReadLoop

/-! ## Written at the end -/

def view : View ReadLoop := ⟨fun s => s.exit.isNone, fun s => s.recvBuffer.bytes, extracted, fun _ => true⟩

theorem extractBody_parses : view.Parses extractBody (fun r s => r = s) where
  short {s} hs hf := by
    have ht := extractTurn_front s
    rw [show wireFront s.recvBuffer.bytes = .short from hf] at ht
    refine ⟨_, _, ht, rfl, hs, ?_, rfl⟩
    simp only [view]
    split <;> rfl
  bad {s} hs hf := by
    have ht := extractTurn_front s
    rw [show wireFront s.recvBuffer.bytes = .bad from hf] at ht
    obtain ⟨e, ht⟩ := ht
    exact ⟨_, _, ht, rfl, rfl, rfl⟩
  frame {s m r} hs hf := by
    have ht := extractTurn_front s
    rw [show wireFront s.recvBuffer.bytes = .frame m r from hf] at ht
    exact ⟨_, ht, hs, rfl, rfl⟩

theorem readStep_follows {g : List Bytes} {s : ReadLoop} {a : Codec.Receiver UInt8 Bytes} (h : view.Follows g s a)
    (hend : s.exit = none → s.recvBuffer.position = s.recvBuffer.bytes.length) {c : Bytes} (hc : c ≠ []) :
    view.Follows g (readStep s c) (wire.feed a c) := by
  refine h.feed extractBody_parses (fun hd => ?_) fun hu =>
    ⟨{ s with recvBuffer := s.recvBuffer.write c }, hu, ?_, rfl, fun s'' ho => ?_⟩
  · rw [readStep, if_pos (by simpa [view, Option.isNone_eq_false_iff] using hd)]
  · have he := hend (by simpa [view] using hu)
    simp [view, MemoryStream.write_end he]
  · have hgo : ¬ s.exit.isSome = true := by simpa [view] using hu
    rw [readStep, if_neg hgo, if_neg hc]
    exact ho

/-! ## Where `Position` is between two chunks -/

/-- Behind what is there of a header. -/
def HeaderRead (s : ReadLoop) : Prop :=
  s.exit = none → s.recvBuffer.position = min HEADER_LEN s.recvBuffer.bytes.length

theorem extract_headerRead {s : ReadLoop} (h : s.recvBuffer.position = s.recvBuffer.bytes.length ∨
    HEADER_LEN ≤ s.recvBuffer.bytes.length) : HeaderRead (extractBody.run s) := by
  refine Body.run_rule extractBody (I := fun s => s.recvBuffer.position = s.recvBuffer.bytes.length ∨
    HEADER_LEN ≤ s.recvBuffer.bytes.length) (fun {s s'} _ ht => ?_) (fun {s r} hI ht => ?_) h
  · have hv := extractTurn_front s
    rw [show extractTurn s = .again s' from ht] at hv
    cases hf : wireFront s.recvBuffer.bytes with
    | short => rw [hf] at hv; cases hv
    | bad => rw [hf] at hv; obtain ⟨e, hv⟩ := hv; cases hv
    | frame m r => rw [hf] at hv; cases hv; exact .inl rfl
  · have hv := extractTurn_front s
    rw [show extractTurn s = .leave r from ht] at hv
    cases hf : wireFront s.recvBuffer.bytes with
    | short =>
      rw [hf] at hv
      cases hv
      intro _
      dsimp only
      split
      · rcases hI with hI | hI <;> omega
      · simp only [MemoryStream.seek]; omega
    | bad =>
      rw [hf] at hv
      obtain ⟨e, hv⟩ := hv
      cases hv
      intro hx
      cases hx
    | frame m r' => rw [hf] at hv; cases hv

theorem readStep_headerRead {s : ReadLoop} (h : HeaderRead s) (c : Bytes) : HeaderRead (readStep s c) := by
  unfold readStep
  split
  · exact h
  · split
    · intro hx; cases hx
    · rename_i hgo hc
      have hp := h (by simpa using hgo)
      refine extract_headerRead ?_
      by_cases hl : s.recvBuffer.bytes.length ≤ HEADER_LEN
      · left
        rw [MemoryStream.write_end (by omega)]
      · right
        simp only [MemoryStream.write, List.length_append, List.length_take]
        omega

theorem readChunks_headerRead {s : ReadLoop} (h : HeaderRead s) (chunks : List Bytes) :
    HeaderRead (readChunks s chunks) := by
  induction chunks generalizing s with
  | nil => exact h
  | cons c cs ih => exact ih (readStep_headerRead h c)

/-! ## No byte comes back -/

/-- The bytes of the frames extracted and of the buffer. -/
def weight (s : ReadLoop) : Nat := (wire.encodeAll s.extracted).length + s.recvBuffer.bytes.length

theorem extract_weight_le (s : ReadLoop) : weight (extractBody.run s) ≤ weight s := by
  refine Body.run_rule extractBody (I := fun t => weight t ≤ weight s) (Q := fun t => weight t ≤ weight s)
    (fun {t t'} hI ht => ?_) (fun {t r} hI ht => ?_) (Nat.le_refl _)
  · have hv := extractTurn_front t
    rw [show extractTurn t = .again t' from ht] at hv
    cases hf : wireFront t.recvBuffer.bytes with
    | short => rw [hf] at hv; cases hv
    | bad => rw [hf] at hv; obtain ⟨e, hv⟩ := hv; cases hv
    | frame m r =>
      have hb := congrArg List.length (wireFront_frame.1 hf).2
      rw [hf] at hv
      cases hv
      simp only [weight, Codec.encodeAll_append, Codec.encodeAll_cons, Codec.encodeAll_nil,
        List.append_nil, List.length_append, wire_encode] at hI hb ⊢
      omega
  · have hv := extractTurn_front t
    rw [show extractTurn t = .leave r from ht] at hv
    cases hf : wireFront t.recvBuffer.bytes with
    | short =>
      rw [hf] at hv
      cases hv
      simp only [weight] at hI ⊢
      split <;> exact hI
    | bad =>
      rw [hf] at hv
      obtain ⟨e, hv⟩ := hv
      cases hv
      simp only [weight, List.length_nil] at hI ⊢
      omega
    | frame m r' => rw [hf] at hv; cases hv

theorem readStep_weight_le {s : ReadLoop} (h : HeaderRead s) (c : Bytes) :
    weight (readStep s c) ≤ weight s + c.length := by
  unfold readStep
  split
  · omega
  · split
    · simp only [weight]; omega
    · rename_i hgo hc
      have hp := h (by simpa using hgo)
      refine Nat.le_trans (extract_weight_le _) ?_
      have := MemoryStream.length_write_le (s := s.recvBuffer) (by omega) c
      simp only [weight]
      omega

/-- A chunk that comes while body bytes are waiting overwrites some of them. -/
theorem readStep_weight_lt {s : ReadLoop} (h : HeaderRead s) (hx : s.exit = none)
    (hlen : HEADER_LEN < s.recvBuffer.bytes.length) {c : Bytes} (hc : c ≠ []) :
    weight (readStep s c) < weight s + c.length := by
  have hp := h hx
  rw [readStep, if_neg (by simp [hx]), if_neg hc]
  refine Nat.lt_of_le_of_lt (extract_weight_le _) ?_
  have := MemoryStream.length_write_lt (s := s.recvBuffer) (by omega) hc
  simp only [weight]
  omega

theorem readChunks_weight_le {s : ReadLoop} (h : HeaderRead s) (chunks : List Bytes) :
    weight (readChunks s chunks) ≤ weight s + chunks.flatten.length := by
  induction chunks generalizing s with
  | nil => exact Nat.le_refl _
  | cons c cs ih =>
    have h1 := readStep_weight_le h c
    have h2 := ih (readStep_headerRead h c)
    simp only [readChunks, List.foldl_cons, List.flatten_cons, List.length_append] at h2 ⊢
    omega

theorem readChunks_exit {s : ReadLoop} {x : LoopExit} (h : s.exit = some x) (chunks : List Bytes) :
    readChunks s chunks = s := by
  induction chunks with
  | nil => rfl
  | cons c cs ih =>
    have : readStep s c = s := by simp [readStep, h]
    simpa [readChunks, this] using ih

/-! ## The exact condition -/

/-- The payloads come out in order, and nothing stays behind or goes wrong. -/
def Recovers (payloads chunks : List Bytes) : Prop :=
  let out := readChunks start chunks
  out.extracted = payloads ∧ out.recvBuffer.bytes = [] ∧ out.exit = none

instance (payloads chunks : List Bytes) : Decidable (Recovers payloads chunks) :=
  inferInstanceAs (Decidable (_ ∧ _ ∧ _))

/-- At every cut at most a header is waiting: no chunk but the last ends behind the first byte of a body
and before its last. -/
def CutsSpareBodies (payloads chunks : List Bytes) : Prop :=
  ∀ pre post, chunks = pre ++ post → post ≠ [] → wire.pending payloads pre.flatten.length ≤ HEADER_LEN

theorem start_headerRead : HeaderRead start := fun _ => rfl

/-- While the loop follows the codec, its buffer is what is pending. -/
theorem length_eq_pending {payloads pre post : List Bytes} (hp : ∀ p ∈ payloads, Admissible p)
    (hcut : (pre ++ post).flatten = wire.encodeAll payloads)
    (hf : view.Follows [] (readChunks start pre) (wire.feedAll ⟨[], [], true⟩ pre))
    (hx : (readChunks start pre).exit = none) :
    (readChunks start pre).recvBuffer.bytes.length = wire.pending payloads pre.flatten.length ∧
      weight (readChunks start pre) = pre.flatten.length := by
  rw [List.flatten_append] at hcut
  have hpre : (wire.encodeAll payloads).take pre.flatten.length = pre.flatten := by
    rw [← hcut]; exact List.take_left
  obtain ⟨ns, r, hs, hr⟩ := Codec.split_take (F := wire) hp (n := pre.flatten.length) (by rw [← hcut]; simp)
  rw [hpre] at hs
  obtain ⟨hext, -, hbuf⟩ := hf.split hs
  have hb : (readChunks start pre).recvBuffer.bytes = r := hbuf (by simp [view, hx])
  have he : (readChunks start pre).extracted = ns :=
    hext.trans (List.filter_eq_self.2 fun _ _ => rfl)
  refine ⟨by rw [hb, hr], ?_⟩
  rw [weight, hb, he, ← List.length_append, ← hs.eq]

/-- The loop follows the codec as far as at most a header was waiting at each cut so far. -/
theorem follows_snoc {pre : List Bytes} {c : Bytes} (hc : c ≠ [])
    (hf : view.Follows [] (readChunks start pre) (wire.feedAll ⟨[], [], true⟩ pre))
    (hlen : (readChunks start pre).exit = none →
      (readChunks start pre).recvBuffer.bytes.length ≤ HEADER_LEN) :
    view.Follows [] (readChunks start (pre ++ [c])) (wire.feedAll ⟨[], [], true⟩ (pre ++ [c])) := by
  have hpos := readChunks_headerRead start_headerRead pre
  have := readStep_follows hf (fun hx => by rw [hpos hx, Nat.min_eq_right (hlen hx)]) hc
  simpa [readChunks, Codec.feedAll] using this

theorem start_follows : view.Follows [] (readChunks start []) (wire.feedAll ⟨[], [], true⟩ []) :=
  ⟨rfl, fun _ => rfl, rfl⟩

theorem recovers_of_spared {payloads chunks : List Bytes} (hp : ∀ p ∈ payloads, Admissible p)
    (hne : ∀ c ∈ chunks, c ≠ []) (hcut : chunks.flatten = wire.encodeAll payloads)
    (h : CutsSpareBodies payloads chunks) : Recovers payloads chunks := by
  have key : ∀ pre post, chunks = pre ++ post →
      view.Follows [] (readChunks start pre) (wire.feedAll ⟨[], [], true⟩ pre) := by
    intro pre
    induction pre using List.reverseRecOn with
    | nil => exact fun _ _ => start_follows
    | append_singleton pre c ih =>
      intro post heq
      have heq' : chunks = pre ++ c :: post := by simpa using heq
      have hf := ih (c :: post) heq'
      refine follows_snoc (hne c (by simp [heq'])) hf ?_
      intro hx
      rw [(length_eq_pending hp (heq' ▸ hcut) hf hx).1]
      exact h pre (c :: post) heq' (by simp)
  obtain ⟨hup, hbuf, hext⟩ := (key chunks [] (by simp)).frames hp hcut
  have hexit : (readChunks start chunks).exit = none := by simpa [view] using hup
  exact ⟨hext.trans (List.filter_eq_self.2 fun _ _ => rfl), hbuf, hexit⟩

theorem spared_of_recovers {payloads chunks : List Bytes} (hp : ∀ p ∈ payloads, Admissible p)
    (hne : ∀ c ∈ chunks, c ≠ []) (hcut : chunks.flatten = wire.encodeAll payloads)
    (h : Recovers payloads chunks) : CutsSpareBodies payloads chunks := by
  obtain ⟨hext, hbytes, hexit⟩ := h
  have hfinal : weight (readChunks start chunks) = chunks.flatten.length := by
    rw [weight, hext, hbytes, hcut]; rfl
  have hsplit : ∀ pre post, readChunks start (pre ++ post) = readChunks (readChunks start pre) post :=
    fun pre post => List.foldl_append ..
  have key : ∀ pre post, chunks = pre ++ post →
      view.Follows [] (readChunks start pre) (wire.feedAll ⟨[], [], true⟩ pre) ∧
        (readChunks start pre).exit = none ∧
        (post ≠ [] → (readChunks start pre).recvBuffer.bytes.length ≤ HEADER_LEN) := by
    intro pre
    induction pre using List.reverseRecOn with
    | nil => exact fun _ _ => ⟨start_follows, rfl, fun _ => Nat.zero_le _⟩
    | append_singleton pre c ih =>
      intro post heq
      have heq' : chunks = pre ++ c :: post := by simpa using heq
      obtain ⟨hf, -, hlen⟩ := ih (c :: post) heq'
      have hf' := follows_snoc (hne c (by simp [heq'])) hf fun _ => hlen (by simp)
      have hx : (readChunks start (pre ++ [c])).exit = none := by
        cases hx : (readChunks start (pre ++ [c])).exit with
        | none => rfl
        | some x =>
          rw [heq, hsplit, readChunks_exit hx, hx] at hexit
          cases hexit
      refine ⟨hf', hx, fun hpost => Nat.le_of_not_lt fun hlt => ?_⟩
      -- the next chunk loses bytes, so the whole run weighs less than the stream
      obtain ⟨d, ds, rfl⟩ := List.exists_cons_of_ne_nil hpost
      have hw := (length_eq_pending hp (heq ▸ hcut) hf' hx).2
      have hhr := readChunks_headerRead start_headerRead (pre ++ [c])
      have h1 := readStep_weight_lt hhr hx hlt (hne d (by simp [heq']))
      have h2 := readChunks_weight_le (readStep_headerRead hhr d) ds
      have h3 : readChunks (readStep (readChunks start (pre ++ [c])) d) ds = readChunks start chunks := by
        rw [heq, hsplit (pre ++ [c])]; rfl
      rw [h3, hfinal, heq] at h2
      simp only [List.flatten_append, List.flatten_cons, List.length_append] at h2 hw h1
      omega
  intro pre post heq hpost
  obtain ⟨hf, hx, hlen⟩ := key pre post heq
  rw [← (length_eq_pending hp (heq ▸ hcut) hf hx).1]
  exact hlen hpost

/-- **Exactly the cuts that spare the bodies are survived.** -/
theorem recovers_iff (payloads chunks : List Bytes) (hp : ∀ p ∈ payloads, Admissible p)
    (hne : ∀ c ∈ chunks, c ≠ []) (hcut : chunks.flatten = (payloads.map frame).flatten) :
    Recovers payloads chunks ↔ CutsSpareBodies payloads chunks := by
  have hcut' : chunks.flatten = wire.encodeAll payloads := hcut.trans (wire_encodeAll payloads).symm
  exact ⟨spared_of_recovers hp hne hcut', recovers_of_spared hp hne hcut'⟩

/-- One message of four bytes, cut between header and body: the only inner cut a receiver survives. -/
theorem recovers_iff_header_body :
    Recovers [ascii "abcd"] [(frame (ascii "abcd")).take 8, ascii "abcd"] ↔
      CutsSpareBodies [ascii "abcd"] [(frame (ascii "abcd")).take 8, ascii "abcd"] :=
  recovers_iff _ _ (by decide) (by decide) (by decide)

/-- **Bug**: a cut two bytes into the same body. The rest is written at `Position` 8, over those two
bytes, and the message is never complete (TcpClient.cs:204). -/
theorem body_cut_loses_message :
    ¬ ∀ payloads chunks : List Bytes, (∀ p ∈ payloads, Admissible p) →
      (∀ c ∈ chunks, c ≠ [] ∧ c.length ≤ 4096) → chunks.flatten = (payloads.map frame).flatten →
      Recovers payloads chunks := by
  intro h
  have hbad := h [ascii "abcd"] [(frame (ascii "abcd")).take 10, ascii "cd"] (by decide) (by decide) (by decide)
  revert hbad
  decide +kernel

end ReadLoop
end KnotLink.CSharp
