import KnotLink.Lib.Bytes
/-!
# UTF-8 text and search in byte strings

The decoder reads one well-formed sequence after another; the strict one gives up at anything else, the
replacing one writes U+FFFD for it and goes on behind it. Decoding undoes encoding (`decodeStrict_encode`,
`decodeReplace_encode`), and an ASCII byte of an encoded text is a character of it (`encode_ascii`).

`indexOf?` is the first occurrence of a pattern; `indexOf?_delimiter` finds a delimiter behind a key.
-/
namespace Lib
namespace Utf8

/-- The bytes of a text. -/
def encode (cs : List Char) : Bytes := cs.flatMap String.utf8EncodeChar

/-- The well-formed sequence at the front. -/
def front? (b : Bytes) : Option Char := b.toByteArray.utf8DecodeChar? 0

/-- A continuation byte. -/
def isTail (b : UInt8) : Bool := 0x80 ≤ b ∧ b ≤ 0xBF

/-- The second bytes a lead byte of three or four admits. -/
def secondOk (b0 b1 : UInt8) : Bool :=
  if b0 = 0xE0 then 0xA0 ≤ b1 ∧ b1 ≤ 0xBF
  else if b0 = 0xED then 0x80 ≤ b1 ∧ b1 ≤ 0x9F
  else if b0 = 0xF0 then 0x90 ≤ b1 ∧ b1 ≤ 0xBF
  else if b0 = 0xF4 then 0x80 ≤ b1 ∧ b1 ≤ 0x8F
  else isTail b1

/-- How many bytes of an ill-formed front one U+FFFD stands for: as many as begin some well-formed
sequence, and at least one. -/
def illFormedLength : Bytes → Nat
  | b0 :: b1 :: rest =>
    if 0xE0 ≤ b0 ∧ b0 ≤ 0xF4 ∧ secondOk b0 b1 then
      match rest with
      | b2 :: _ => if 0xF0 ≤ b0 ∧ isTail b2 then 3 else 2
      | [] => 2
    else 1
  | _ => 1

theorem illFormedLength_pos (b : Bytes) : 0 < illFormedLength b := by
  unfold illFormedLength
  repeat' split
  all_goals decide

/-- `decode("utf-8")`: nothing where the bytes are ill-formed. -/
def decodeStrict (b : Bytes) : Option (List Char) :=
  match b with
  | [] => some []
  | b0 :: rest =>
    match front? (b0 :: rest) with
    | none => none
    | some c => (decodeStrict ((b0 :: rest).drop c.utf8Size)).map (c :: ·)
termination_by b.length
decreasing_by have := c.utf8Size_pos; simp only [List.length_drop, List.length_cons]; omega

/-- `decode("utf-8", errors="replace")`. -/
def decodeReplace (b : Bytes) : List Char :=
  match b with
  | [] => []
  | b0 :: rest =>
    match front? (b0 :: rest) with
    | none => '\uFFFD' :: decodeReplace ((b0 :: rest).drop (illFormedLength (b0 :: rest)))
    | some c => c :: decodeReplace ((b0 :: rest).drop c.utf8Size)
termination_by b.length
decreasing_by
  · have := illFormedLength_pos (b0 :: rest); simp only [List.length_drop, List.length_cons]; omega
  · have := c.utf8Size_pos; simp only [List.length_drop, List.length_cons]; omega

@[simp] theorem encode_nil : encode [] = [] := rfl

@[simp] theorem encode_cons (c : Char) (cs : List Char) :
    encode (c :: cs) = String.utf8EncodeChar c ++ encode cs := rfl

@[simp] theorem encode_append (cs ds : List Char) : encode (cs ++ ds) = encode cs ++ encode ds := by
  simp [encode]

theorem front?_encodeChar (c : Char) (b : Bytes) : front? (String.utf8EncodeChar c ++ b) = some c := by
  rw [front?, List.toByteArray_append]
  exact ByteArray.utf8DecodeChar?_utf8EncodeChar_append

theorem drop_encodeChar (c : Char) (b : Bytes) : (String.utf8EncodeChar c ++ b).drop c.utf8Size = b :=
  List.drop_left' (String.length_utf8EncodeChar c)

theorem encodeChar_cons (c : Char) : ∃ b0 bs, String.utf8EncodeChar c = b0 :: bs :=
  List.exists_cons_of_ne_nil String.utf8EncodeChar_ne_nil

theorem decodeStrict_encode (cs : List Char) : decodeStrict (encode cs) = some cs := by
  induction cs with
  | nil => simp [decodeStrict]
  | cons c cs ih =>
    obtain ⟨b0, bs, hb⟩ := encodeChar_cons c
    have hf := front?_encodeChar c (encode cs)
    have hd := drop_encodeChar c (encode cs)
    rw [hb, List.cons_append] at hf hd
    rw [encode_cons, hb, List.cons_append, decodeStrict, hf]
    simp [hd, ih]

theorem front?_eq_some {b : Bytes} {c : Char} (h : front? b = some c) :
    b = String.utf8EncodeChar c ++ b.drop c.utf8Size := by
  obtain ⟨l, hl⟩ := ByteArray.exists_of_utf8DecodeChar?_eq_some h
  have hb : b = String.utf8EncodeChar c ++ l.data.toList := by
    have := congrArg (fun a : ByteArray => a.data.toList) hl
    simpa [List.utf8Encode] using this
  rw [hb, drop_encodeChar]

/-- What is accepted is the encoding of what is returned. -/
theorem decodeStrict_eq_some {b : Bytes} {cs : List Char} : decodeStrict b = some cs ↔ b = encode cs := by
  refine ⟨fun h => ?_, fun h => h ▸ decodeStrict_encode cs⟩
  induction b using decodeStrict.induct generalizing cs with
  | case1 =>
    rw [decodeStrict] at h
    cases h
    rfl
  | case2 b0 rest hf =>
    rw [decodeStrict, hf] at h
    cases h
  | case3 b0 rest c hf ih =>
    rw [decodeStrict, hf] at h
    obtain ⟨ds, hd, rfl⟩ := Option.map_eq_some_iff.1 h
    rw [front?_eq_some hf, ih hd, encode_cons]

theorem decodeReplace_encode (cs : List Char) : decodeReplace (encode cs) = cs := by
  induction cs with
  | nil => simp [decodeReplace]
  | cons c cs ih =>
    obtain ⟨b0, bs, hb⟩ := encodeChar_cons c
    have hf := front?_encodeChar c (encode cs)
    have hd := drop_encodeChar c (encode cs)
    rw [hb, List.cons_append] at hf hd
    rw [encode_cons, hb, List.cons_append, decodeReplace, hf]
    simp [hd, ih]

/-- Where nothing was replaced, the text has the bytes it was decoded from. -/
theorem encode_decodeReplace {b : Bytes} (h : '\uFFFD' ∉ decodeReplace b) : encode (decodeReplace b) = b := by
  induction b using decodeReplace.induct with
  | case1 => simp [decodeReplace]
  | case2 b0 rest hf ih =>
    rw [decodeReplace, hf] at h
    simp at h
  | case3 b0 rest c hf ih =>
    rw [decodeReplace, hf] at h ⊢
    simp only [List.mem_cons, not_or] at h
    rw [encode_cons, ih h.2]
    exact (front?_eq_some hf).symm

/-- Nothing is lost in decoding and encoding again exactly if the bytes are the UTF-8 of a text. -/
theorem encode_decodeReplace_iff {b : Bytes} : encode (decodeReplace b) = b ↔ ∃ cs, b = encode cs := by
  constructor
  · exact fun h => ⟨_, h.symm⟩
  · rintro ⟨cs, rfl⟩
    rw [decodeReplace_encode]

/-- Bytes decode to a text without replacement characters only if they encode it. -/
theorem decodeReplace_eq_iff {b : Bytes} {cs : List Char} (h : '\uFFFD' ∉ cs) : decodeReplace b = cs ↔ b = encode cs := by
  constructor
  · rintro rfl
    exact (encode_decodeReplace h).symm
  · rintro rfl
    exact decodeReplace_encode cs

/-! ## ASCII bytes -/

theorem not_ascii {n : Nat} (h : 0x80 ≤ n) (h' : n < 0x100) : ¬ UInt8.ofNat n < 0x80 := by
  rw [UInt8.lt_iff_toNat_lt, UInt8.toNat_ofNat', Nat.mod_eq_of_lt h']
  exact Nat.not_lt.2 h

/-- An ASCII byte in the sequence of a character is all of it. -/
theorem encodeChar_ascii {c : Char} {a : UInt8} (h : a ∈ String.utf8EncodeChar c) (ha : a < 0x80) :
    String.utf8EncodeChar c = [a] := by
  unfold String.utf8EncodeChar at h ⊢
  dsimp only at h ⊢
  split at h
  · rename_i h7
    rw [if_pos h7, List.mem_singleton.1 h]
  · -- the longer forms have no byte below 0x80
    exfalso
    split at h
    · simp only [List.mem_cons, List.not_mem_nil, or_false] at h
      rcases h with rfl | rfl <;> exact not_ascii (by omega) (by omega) ha
    · split at h <;> simp only [List.mem_cons, List.not_mem_nil, or_false] at h
      · rcases h with rfl | rfl | rfl <;> exact not_ascii (by omega) (by omega) ha
      · rcases h with rfl | rfl | rfl | rfl <;> exact not_ascii (by omega) (by omega) ha

/-- An ASCII byte of an encoded text is one of its characters, and cuts the text there. -/
theorem encode_ascii {cs : List Char} {y x : Bytes} {a : UInt8} (h : encode cs = y ++ a :: x) (ha : a < 0x80) :
    ∃ c ds es, cs = ds ++ c :: es ∧ String.utf8EncodeChar c = [a] ∧ encode ds = y ∧ encode es = x := by
  induction cs generalizing y with
  | nil => simp at h
  | cons c cs ih =>
    rw [encode_cons] at h
    rcases List.append_eq_append_iff.1 h with ⟨y', rfl, hcs⟩ | ⟨z, hc, hx⟩
    · obtain ⟨c', ds, es, rfl, hc', hds, hes⟩ := ih hcs
      exact ⟨c', c :: ds, es, rfl, hc', by rw [encode_cons, hds], hes⟩
    · cases z with
      | nil =>
        -- the byte is the first of the next character
        rw [List.append_nil] at hc
        obtain ⟨c', ds, es, rfl, hc', hds, hes⟩ := ih (y := []) (by simpa using hx.symm)
        exact ⟨c', c :: ds, es, rfl, hc', by rw [encode_cons, hds, List.append_nil, hc], hes⟩
      | cons b z =>
        obtain ⟨rfl, rfl⟩ := List.cons.inj hx
        have hone := encodeChar_ascii (a := a) (by rw [hc]; simp) ha
        rw [hone] at hc
        obtain ⟨rfl, hz⟩ : y = [] ∧ z = [] := by
          rcases y with _ | ⟨y0, ys⟩
          · simpa using hc
          · simp at hc
        exact ⟨c, [], cs, rfl, hone, rfl, by rw [hz]; rfl⟩

theorem encodeChar_of_ascii {c : Char} (h : c.toNat < 0x80) : String.utf8EncodeChar c = [UInt8.ofNat c.toNat] :=
  if_pos (Nat.le_of_lt_succ h)

theorem encodeChar_inj {c d : Char} (h : String.utf8EncodeChar c = String.utf8EncodeChar d) : c = d := by
  have hc := front?_encodeChar c []
  rw [h, front?_encodeChar d []] at hc
  exact (Option.some.inj hc).symm

/-- The bytes of an ASCII text inside the bytes of another one are that text inside the other. -/
theorem encode_infix {p : List Char} (hp : ∀ c ∈ p, c.toNat < 0x80) (hne : p ≠ []) {cs : List Char} {y x : Bytes}
    (h : encode cs = y ++ encode p ++ x) : ∃ ds es, cs = ds ++ p ++ es ∧ encode ds = y ∧ encode es = x := by
  induction p generalizing cs y with
  | nil => exact absurd rfl hne
  | cons c p ih =>
    have hc := encodeChar_of_ascii (hp c (by simp))
    have ha : UInt8.ofNat c.toNat < 0x80 := by
      have := hp c (by simp)
      rw [UInt8.lt_iff_toNat_lt, UInt8.toNat_ofNat', Nat.mod_eq_of_lt (by omega)]
      exact this
    rw [encode_cons, hc, List.append_assoc] at h
    obtain ⟨d, ds, es, rfl, hd, hds, hes⟩ := encode_ascii h ha
    obtain rfl : d = c := encodeChar_inj (hd.trans hc.symm)
    rcases p with _ | ⟨c', p⟩
    · exact ⟨ds, es, by simp, hds, hes⟩
    · obtain ⟨ds', es', rfl, hds', hes'⟩ := ih (y := []) (fun x hx => hp x (by simp [hx])) (by simp) hes
      have hnil : ds' = [] := by
        rcases ds' with _ | ⟨b, bs⟩
        · rfl
        · simp [String.utf8EncodeChar_ne_nil] at hds'
      subst hnil
      exact ⟨ds, es', by simp, hds, hes'⟩

end Utf8

/-! ## Search -/

section
variable {α : Type} [DecidableEq α]

/-- Where the pattern first occurs (`bytes.index`). -/
def indexOf? (p : List α) : List α → Option Nat
  | [] => if p = [] then some 0 else none
  | a :: b => if p <+: a :: b then some 0 else (indexOf? p b).map (· + 1)

/-- A delimiter `aba` behind a key that neither holds it nor ends in `ab`. -/
theorem indexOf?_delimiter {a b : α} (hab : a ≠ b) {k : List α} (hin : ¬ [a, b, a] <:+: k)
    (hend : ¬ [a, b] <:+ k) (d : List α) : indexOf? [a, b, a] (k ++ [a, b, a] ++ d) = some k.length := by
  induction k with
  | nil => simp [indexOf?]
  | cons x k ih =>
    have hin' : ¬ [a, b, a] <:+: k := fun h => hin (h.trans (List.suffix_cons x k).isInfix)
    have hend' : ¬ [a, b] <:+ k := fun h => hend (h.trans (List.suffix_cons x k))
    have hno : ¬ [a, b, a] <+: x :: (k ++ [a, b, a] ++ d) := by
      intro h
      obtain ⟨rfl, htail⟩ := List.cons_prefix_cons.1 h
      rcases k with _ | ⟨y, _ | ⟨z, k⟩⟩
      · simp [hab.symm] at htail
      · obtain ⟨rfl, -⟩ := List.cons_prefix_cons.1 htail
        exact hend (List.suffix_refl _)
      · obtain ⟨rfl, hlast⟩ := List.cons_prefix_cons.1 htail
        obtain ⟨rfl, -⟩ := List.cons_prefix_cons.1 hlast
        exact hin (List.prefix_append [a, b, a] k).isInfix
    rw [List.cons_append, List.cons_append, indexOf?, if_neg hno, ih hin' hend']
    rfl

end
end Lib
