import KnotLink.Lib.Loop
/-!
# Frames over a byte stream

A `Codec` says how one message is written (`encode`) and what the front of a buffer holds (`front`):
too little, something malformed, or one whole frame. A `Receiver` keeps the unread bytes, the
messages read so far and whether the stream is still good; `feed` appends a chunk and reads frames
until none is left at the front.

`Split b ms r` is the meaning of a buffer: `b` is the frames of `ms` followed by `r`, and `r` does not
start with a frame. It exists and is unique, `ms` is the longest list of frames in front of `b`
(`Split.longest`), and whatever the cut into chunks, feeding a stream gives its split
(`feedAll_split`).
-/
namespace Lib

/-- What the front of a buffer holds. -/
inductive Front (β μ : Type) where
  | short
  | bad
  | frame (m : μ) (rest : List β)

structure Codec (β μ : Type) where
  encode : μ → List β
  /-- The messages a reader accepts. -/
  Ok : μ → Prop
  front : List β → Front β μ
  front_nil : front [] = .short
  encode_ne_nil : ∀ m, encode m ≠ []
  /-- A frame is read exactly when one was written. -/
  front_frame : ∀ {b m r}, front b = .frame m r ↔ Ok m ∧ b = encode m ++ r
  /-- More bytes do not repair a malformed front. -/
  bad_append : ∀ {b} c, front b = .bad → front (b ++ c) = .bad

namespace Codec
variable {β μ : Type} (F : Codec β μ)

/-- The frames of a list of messages, one after another. -/
def encodeAll (ms : List μ) : List β := ms.flatMap F.encode

@[simp] theorem encodeAll_nil : F.encodeAll [] = [] := rfl

@[simp] theorem encodeAll_cons (m : μ) (ms : List μ) :
    F.encodeAll (m :: ms) = F.encode m ++ F.encodeAll ms := rfl

@[simp] theorem encodeAll_append (ms ns : List μ) :
    F.encodeAll (ms ++ ns) = F.encodeAll ms ++ F.encodeAll ns := by simp [encodeAll]

theorem front_encode {m : μ} (h : F.Ok m) (r : List β) : F.front (F.encode m ++ r) = .frame m r :=
  F.front_frame.2 ⟨h, rfl⟩

theorem front_frame_length {b r : List β} {m : μ} (h : F.front b = .frame m r) : r.length < b.length := by
  have hne := List.length_pos_iff.2 (F.encode_ne_nil m)
  rw [(F.front_frame.1 h).2, List.length_append]
  omega

/-! ## The split of a buffer -/

/-- `b` is the frames of `ms`, then `r`, which does not start with a frame. -/
structure Split (b : List β) (ms : List μ) (r : List β) : Prop where
  eq : b = F.encodeAll ms ++ r
  ok : ∀ m ∈ ms, F.Ok m
  stop : ∀ m r', F.front r ≠ .frame m r'

variable {F}

theorem Split.nil {b : List β} (h : ∀ m r, F.front b ≠ .frame m r) : F.Split b [] b :=
  ⟨by simp, by simp, h⟩

theorem Split.cons {b r r' : List β} {m : μ} {ms : List μ} (h : F.front b = .frame m r)
    (hs : F.Split r ms r') : F.Split b (m :: ms) r' := by
  obtain ⟨hok, rfl⟩ := F.front_frame.1 h
  refine ⟨by simp [hs.eq], ?_, hs.stop⟩
  intro x hx
  rcases List.mem_cons.1 hx with rfl | hx
  · exact hok
  · exact hs.ok x hx

variable (F) in
theorem split_exists (b : List β) : ∃ ms r, F.Split b ms r := by
  cases h : F.front b with
  | frame m r =>
    obtain ⟨ms, r', hs⟩ := split_exists r
    exact ⟨m :: ms, r', hs.cons h⟩
  | short => exact ⟨[], b, .nil (by simp [h])⟩
  | bad => exact ⟨[], b, .nil (by simp [h])⟩
termination_by b.length
decreasing_by exact F.front_frame_length h

/-- **Unique parsing.** Any frames in front of `b` are the first frames of its split. -/
theorem Split.longest {b r : List β} {ms : List μ} (h : F.Split b ms r) :
    ∀ {ns : List μ} {r' : List β}, (∀ n ∈ ns, F.Ok n) → b = F.encodeAll ns ++ r' → ns <+: ms := by
  intro ns
  induction ns generalizing b ms with
  | nil => intros; exact List.nil_prefix
  | cons n ns ih =>
    intro r' hok hb
    have hn : F.front b = .frame n (F.encodeAll ns ++ r') := by
      rw [hb, encodeAll_cons, List.append_assoc]
      exact F.front_encode (hok n (by simp)) _
    cases ms with
    | nil =>
      obtain rfl : b = r := by simpa using h.eq
      exact absurd hn (h.stop _ _)
    | cons m ms =>
      have hm : F.front b = .frame m (F.encodeAll ms ++ r) := by
        rw [h.eq, encodeAll_cons, List.append_assoc]
        exact F.front_encode (h.ok m (by simp)) _
      obtain ⟨rfl, hrest⟩ : n = m ∧ F.encodeAll ns ++ r' = F.encodeAll ms ++ r := by
        simpa [hn] using hm
      have htail : F.Split (F.encodeAll ms ++ r) ms r :=
        ⟨rfl, fun x hx => h.ok x (by simp [hx]), h.stop⟩
      exact List.cons_prefix_cons.2 ⟨rfl, ih htail (fun x hx => hok x (by simp [hx])) hrest.symm⟩

theorem Split.unique {b r r' : List β} {ms ns : List μ} (h : F.Split b ms r) (h' : F.Split b ns r') :
    ms = ns ∧ r = r' := by
  have h1 : ms <+: ns := h'.longest h.ok h.eq
  have h2 : ns <+: ms := h.longest h'.ok h'.eq
  obtain rfl := h1.eq_of_length_le h2.length_le
  exact ⟨rfl, List.append_cancel_left (h.eq.symm.trans h'.eq)⟩

/-- Reading on after more bytes have come. -/
theorem Split.append {b r c r' : List β} {ms ns : List μ} (h : F.Split b ms r)
    (h' : F.Split (r ++ c) ns r') : F.Split (b ++ c) (ms ++ ns) r' := by
  refine ⟨?_, ?_, h'.stop⟩
  · rw [h.eq, List.append_assoc, h'.eq, encodeAll_append, List.append_assoc]
  · intro m hm
    rcases List.mem_append.1 hm with hm | hm
    · exact h.ok m hm
    · exact h'.ok m hm

/-- Behind a malformed front nothing more is ever read. -/
theorem Split.append_bad {b r : List β} {ms : List μ} (h : F.Split b ms r) (hbad : F.front r = .bad)
    (c : List β) : F.Split (b ++ c) ms (r ++ c) :=
  ⟨by rw [h.eq, List.append_assoc], h.ok, by simp [F.bad_append c hbad]⟩

/-- Frames that are all accepted split back into their messages. -/
theorem split_encodeAll {ms : List μ} (hok : ∀ m ∈ ms, F.Ok m) : F.Split (F.encodeAll ms) ms [] := by
  exact ⟨by simp, hok, by simp [F.front_nil]⟩

/-! ## A stream of frames, cut short -/

theorem frame_append {b r : List β} {m : μ} (h : F.front b = .frame m r) (c : List β) :
    F.front (b ++ c) = .frame m (r ++ c) := by
  obtain ⟨hok, rfl⟩ := F.front_frame.1 h
  rw [List.append_assoc]
  exact F.front_encode hok _

/-- A frame that is not all there is waited for. -/
theorem front_part {p rest : List β} {m : μ} (hok : F.Ok m) (h : p ++ rest = F.encode m) (hrest : rest ≠ []) :
    F.front p = .short := by
  have hwhole : F.front (p ++ rest) = .frame m [] := F.front_frame.2 ⟨hok, by simpa using h⟩
  cases hf : F.front p with
  | short => rfl
  | bad => cases (F.bad_append rest hf).symm.trans hwhole
  | frame m' r =>
    have := (Front.frame.inj ((frame_append hf rest).symm.trans hwhole)).2
    exact absurd (List.append_eq_nil_iff.1 this).2 hrest

variable (F) in
/-- How many of the first `n` bytes of the frames of `ms` come after the last complete frame. -/
def pending (ms : List μ) (n : Nat) : Nat :=
  match ms with
  | [] => n
  | m :: ms => if n < (F.encode m).length then n else pending ms (n - (F.encode m).length)

theorem split_take {ms : List μ} (hok : ∀ m ∈ ms, F.Ok m) {n : Nat} (hn : n ≤ (F.encodeAll ms).length) :
    ∃ ns r, F.Split ((F.encodeAll ms).take n) ns r ∧ r.length = F.pending ms n := by
  induction ms generalizing n with
  | nil =>
    obtain rfl : n = 0 := by simpa using hn
    exact ⟨[], [], .nil (by simp [F.front_nil]), rfl⟩
  | cons m ms ih =>
    have hm := hok m (by simp)
    rw [encodeAll_cons, List.take_append]
    by_cases hlt : n < (F.encode m).length
    · refine ⟨[], (F.encode m).take n, ?_, by simp [pending, hlt, Nat.min_eq_left (Nat.le_of_lt hlt)]⟩
      rw [Nat.sub_eq_zero_of_le (Nat.le_of_lt hlt), List.take_zero, List.append_nil]
      refine .nil ?_
      intro m' r' hf
      -- a whole frame inside a proper prefix of one would leave bytes over
      have h1 := frame_append hf ((F.encode m).drop n)
      have h2 := F.front_encode hm []
      rw [List.take_append_drop] at h1
      rw [List.append_nil, h1] at h2
      have hlen := congrArg List.length (Front.frame.inj h2).2
      simp at hlen
      omega
    · have hrest : n - (F.encode m).length ≤ (F.encodeAll ms).length := by
        rw [encodeAll_cons, List.length_append] at hn
        omega
      obtain ⟨ns, r, hs, hr⟩ := ih (fun x hx => hok x (by simp [hx])) hrest
      rw [List.take_of_length_le (by omega)]
      exact ⟨m :: ns, r, hs.cons (F.front_encode hm _), by simp [pending, hlt, hr]⟩

/-! ## The receiver -/

/-- Unread bytes, messages read, and whether the stream is still good. -/
structure Receiver (β μ : Type) where
  buffer : List β
  got : List μ
  up : Bool

variable (F)

/-- Read frames off the front of the buffer. -/
def drain : Body (Receiver β μ) (Receiver β μ) where
  turn s := match F.front s.buffer with
    | .frame m r => .again { s with buffer := r, got := s.got ++ [m] }
    | .bad => .leave { s with up := false }
    | .short => .leave s
  measure s := s.buffer.length
  decreases {s s'} h := by
    cases hf : F.front s.buffer with
    | frame m r =>
      simp only [hf, Turn.again.injEq] at h
      subst h
      exact F.front_frame_length hf
    | bad => simp [hf] at h
    | short => simp [hf] at h

/-- One chunk arrives. A receiver that has given up takes no more. -/
def feed (s : Receiver β μ) (c : List β) : Receiver β μ :=
  if s.up then F.drain.run { s with buffer := s.buffer ++ c } else s

def feedAll (s : Receiver β μ) (cs : List (List β)) : Receiver β μ := cs.foldl F.feed s

theorem feedAll_down {s : Receiver β μ} (h : s.up = false) (cs : List (List β)) : F.feedAll s cs = s := by
  induction cs with
  | nil => rfl
  | cons c cs ih => simpa [feedAll, feed, h] using ih

/-- Draining a good receiver reads exactly the split of its buffer. -/
theorem drain_split {b r : List β} {ms : List μ} (h : F.Split b ms r) (g : List μ) :
    (F.drain.run ⟨b, g, true⟩).got = g ++ ms ∧ (F.drain.run ⟨b, g, true⟩).buffer = r ∧
      ((F.drain.run ⟨b, g, true⟩).up = false ↔ F.front r = .bad) := by
  induction ms generalizing b g with
  | nil =>
    obtain rfl : b = r := by simpa using h.eq
    cases hf : F.front b with
    | frame m r => exact absurd hf (h.stop m r)
    | bad =>
      rw [Body.run_leave (b := F.drain) (r := ⟨b, g, false⟩) (by simp [drain, hf])]
      simp
    | short =>
      rw [Body.run_leave (b := F.drain) (r := ⟨b, g, true⟩) (by simp [drain, hf])]
      simp
  | cons m ms ih =>
    have hf : F.front b = .frame m (F.encodeAll ms ++ r) := by
      rw [h.eq, encodeAll_cons, List.append_assoc]
      exact F.front_encode (h.ok m (by simp)) _
    have hturn : F.drain.turn ⟨b, g, true⟩ = .again ⟨F.encodeAll ms ++ r, g ++ [m], true⟩ := by
      simp [drain, hf]
    have htail : F.Split (F.encodeAll ms ++ r) ms r :=
      ⟨rfl, fun x hx => h.ok x (by simp [hx]), h.stop⟩
    rw [Body.run_again hturn]
    simpa using ih htail (g ++ [m])

/-- The receiver `s`, which started with the messages `g`, has read the stream `b`. -/
def Tracks (g : List μ) (b : List β) (s : Receiver β μ) : Prop :=
  ∃ ms r, F.Split b ms r ∧ s.got = g ++ ms ∧ (s.up = false ↔ F.front r = .bad) ∧
    (s.up = true → s.buffer = r)

theorem tracks_feed {g : List μ} {b : List β} {s : Receiver β μ} (h : F.Tracks g b s) (c : List β) :
    F.Tracks g (b ++ c) (F.feed s c) := by
  obtain ⟨ms, r, hs, hgot, hup, hbuf⟩ := h
  by_cases hu : s.up = true
  · obtain ⟨ns, r', hs'⟩ := F.split_exists (r ++ c)
    have hd := F.drain_split hs' s.got
    have hfeed : F.feed s c = F.drain.run ⟨r ++ c, s.got, true⟩ := by
      simp only [feed, hu, if_true, hbuf hu]
    rw [hfeed]
    refine ⟨ms ++ ns, r', hs.append hs', ?_, hd.2.2, fun _ => hd.2.1⟩
    rw [hd.1, hgot, List.append_assoc]
  · have hdown : s.up = false := by simpa using hu
    have hbad := hup.1 hdown
    have hfeed : F.feed s c = s := by simp [feed, hdown]
    rw [hfeed]
    exact ⟨ms, r ++ c, hs.append_bad hbad c, hgot, by simp [hdown, F.bad_append c hbad], by simp [hdown]⟩

theorem tracks_feedAll {g : List μ} {b : List β} {s : Receiver β μ} (h : F.Tracks g b s)
    (cs : List (List β)) : F.Tracks g (b ++ cs.flatten) (F.feedAll s cs) := by
  induction cs generalizing b s with
  | nil => simpa [feedAll] using h
  | cons c cs ih => simpa [feedAll] using ih (F.tracks_feed h c)

/-- **However a stream is cut, a fresh receiver reads its split** and gives up exactly when what is
left is malformed. -/
theorem feedAll_split {cs : List (List β)} {ms : List μ} {r : List β} (h : F.Split cs.flatten ms r)
    (g : List μ) :
    (F.feedAll ⟨[], g, true⟩ cs).got = g ++ ms ∧
      ((F.feedAll ⟨[], g, true⟩ cs).up = false ↔ F.front r = .bad) ∧
      ((F.feedAll ⟨[], g, true⟩ cs).up = true → (F.feedAll ⟨[], g, true⟩ cs).buffer = r) := by
  have h0 : F.Tracks g [] ⟨[], g, true⟩ := by
    refine ⟨[], [], .nil ?_, ?_, ?_, ?_⟩ <;> simp [F.front_nil]
  obtain ⟨ms', r', hs, hgot, hup, hbuf⟩ := F.tracks_feedAll h0 cs
  obtain ⟨rfl, rfl⟩ := h.unique (by simpa using hs)
  exact ⟨hgot, hup, hbuf⟩

/-- A reader whose every chunk keeps a relation with the receiver keeps it over a stream. -/
theorem feedAll_follow {σ : Type} {R : σ → Receiver β μ → Prop} {P : List β → Prop} {recv : σ → List β → σ}
    (hstep : ∀ {s a c}, P c → R s a → R (recv s c) (F.feed a c)) {cs : List (List β)} (hcs : ∀ c ∈ cs, P c) :
    ∀ {s : σ} {a : Receiver β μ}, R s a → R (cs.foldl recv s) (F.feedAll a cs) := by
  induction cs with
  | nil => intro s a h; exact h
  | cons c cs ih =>
    intro s a h
    exact ih (fun x hx => hcs x (by simp [hx])) (hstep (hcs c (by simp)) h)

end Codec
end Lib
