import KnotLink.Lib.KeyValue
/-!
# Texts in other alphabets

An `Encoding` writes each character as a word, such that the first character of a text can be told from the
front of what was written. A `Mark` is a character whose word is one letter that is in no other word: an encoded
text is cut at that letter where the text is cut at the character. So a text of key-value entries is read alike
in every encoding in which its separators are marks (`entries_read_encode`).

`utf8` and `utf16` are encodings, and so is any injection of the characters into an alphabet (`letters`).
-/
namespace Lib

structure Encoding (α β : Type) where
  word : α → List β
  word_ne_nil : ∀ a, word a ≠ []
  /-- The front of what was written tells the first character. -/
  front : ∀ {a b x y}, word a ++ x = word b ++ y → a = b

namespace Encoding
variable {α β : Type} (E : Encoding α β)

def encode (s : List α) : List β := s.flatMap E.word

/-- The word of `a` is the letter `b`, which is in no other word. -/
structure Mark (a : α) (b : β) : Prop where
  word : E.word a = [b]
  alone : ∀ c, b ∈ E.word c → c = a

variable {E}

@[simp] theorem encode_nil : E.encode [] = [] := rfl

@[simp] theorem encode_cons (c : α) (s : List α) : E.encode (c :: s) = E.word c ++ E.encode s := rfl

@[simp] theorem encode_append (s t : List α) : E.encode (s ++ t) = E.encode s ++ E.encode t := List.flatMap_append

theorem encode_injective : Function.Injective E.encode := by
  intro s
  induction s with
  | nil =>
    intro t h
    cases t with
    | nil => rfl
    | cons d t => simp [E.word_ne_nil] at h
  | cons c s ih =>
    intro t h
    cases t with
    | nil => simp [E.word_ne_nil] at h
    | cons d t =>
      obtain rfl : c = d := E.front h
      rw [ih (List.append_cancel_left h)]

/-! ## Cutting at a mark -/

section
variable {a : α} {b : β} {s : List α}

theorem Mark.encode (h : E.Mark a b) (t r : List α) : E.encode (t ++ a :: r) = E.encode t ++ b :: E.encode r := by
  rw [encode_append, encode_cons, h.word, List.singleton_append]

theorem Mark.mem_encode (h : E.Mark a b) : b ∈ E.encode s ↔ a ∈ s := by
  unfold Encoding.encode
  rw [List.mem_flatMap]
  constructor
  · rintro ⟨c, hc, hb⟩
    exact h.alone c hb ▸ hc
  · exact fun ha => ⟨a, ha, by simp [h.word]⟩

variable [DecidableEq α] [DecidableEq β]

theorem Mark.cut?_encode (h : E.Mark a b) (s : List α) :
    cut? [b] (E.encode s) = (cut? [a] s).map (Prod.map E.encode E.encode) := by
  cases hcut : cut? [a] s with
  | none =>
    rw [cut?_eq_none_iff (by simp), List.singleton_infix_iff] at hcut
    rw [Option.map_none, cut?_eq_none_iff (by simp), List.singleton_infix_iff]
    exact fun hmem => hcut (h.mem_encode.1 hmem)
  | some e =>
    obtain ⟨t, r⟩ := e
    obtain ⟨rfl, ht⟩ := cut?_singleton.1 hcut
    rw [Option.map_some, Prod.map_apply, cut?_singleton]
    exact ⟨h.encode t r, fun hmem => ht (h.mem_encode.1 hmem)⟩

theorem Mark.splitOn_encode (h : E.Mark a b) (s : List α) :
    (E.encode s).splitOn b = (s.splitOn a).map E.encode := by
  cases hcut : cut? [a] s with
  | none =>
    rw [cut?_eq_none_iff (by simp), List.singleton_infix_iff] at hcut
    rw [List.splitOn_eq_singleton hcut, List.splitOn_eq_singleton (fun hmem => hcut (h.mem_encode.1 hmem))]
    rfl
  | some e =>
    obtain ⟨t, r⟩ := e
    obtain ⟨rfl, ht⟩ := cut?_singleton.1 hcut
    rw [h.encode, List.splitOn_append_cons_self_of_not_mem ht,
      List.splitOn_append_cons_self_of_not_mem (fun hmem => ht (h.mem_encode.1 hmem)), h.splitOn_encode r]
    rfl
termination_by s.length

end

/-! ## Key-value entries -/

section
variable [DecidableEq α] [DecidableEq β] {eq sep : α} {eq' sep' : β}

theorem entriesOf_encode (heq : E.Mark eq eq') (hsep : E.Mark sep sep') (s : List α) :
    KeyValue.entriesOf eq' sep' (E.encode s) = (KeyValue.entriesOf eq sep s).map (Prod.map E.encode E.encode) := by
  rw [KeyValue.entriesOf, KeyValue.entriesOf, hsep.splitOn_encode, List.filterMap_map, List.map_filterMap]
  exact List.filterMap_congr fun g _ => heq.cut?_encode g

theorem entries_read_encode (heq : E.Mark eq eq') (hsep : E.Mark sep sep') (s : List α) :
    (KeyValue.read eq' sep' (E.encode s)).entries =
      (KeyValue.read eq sep s).entries.map (Prod.map E.encode E.encode) := by
  rw [KeyValue.read, entriesOf_encode heq hsep]
  exact Dict.insertAll_map encode_injective rfl _

omit [DecidableEq α] [DecidableEq β] in
theorem assign_encode (heq : E.Mark eq eq') (e : List α × List α) :
    KeyValue.assign eq' (Prod.map E.encode E.encode e) = E.encode (KeyValue.assign eq e) :=
  (heq.encode e.1 e.2).symm

omit [DecidableEq α] [DecidableEq β] in
theorem write_encode (heq : E.Mark eq eq') (hsep : E.Mark sep sep') (es : List (List α × List α)) :
    KeyValue.write eq' sep' (es.map (Prod.map E.encode E.encode)) = E.encode (KeyValue.write eq sep es) := by
  cases es with
  | nil => rfl
  | cons e es =>
    have hrest : ((es.map (Prod.map E.encode E.encode)).flatMap fun e => sep' :: KeyValue.assign eq' e) =
        E.encode (es.flatMap fun e => sep :: KeyValue.assign eq e) := by
      induction es with
      | nil => rfl
      | cons e es ih =>
        rw [List.map_cons, List.flatMap_cons, List.flatMap_cons, ih, assign_encode heq, encode_append, encode_cons,
          hsep.word, List.singleton_append]
    rw [List.map_cons, KeyValue.write_cons, KeyValue.write_cons, encode_append, hrest, assign_encode heq]

end

/-! ## Encodings -/

/-- One letter for each character. -/
def letters {f : α → β} (hf : Function.Injective f) : Encoding α β where
  word c := [f c]
  word_ne_nil _ := List.cons_ne_nil _ _
  front h := hf (List.cons.inj h).1

theorem mark_letters {f : α → β} (hf : Function.Injective f) (a : α) : (letters hf).Mark a (f a) :=
  ⟨rfl, fun _ hc => (hf (List.mem_singleton.1 hc)).symm⟩

theorem encode_letters {f : α → β} (hf : Function.Injective f) (s : List α) : (letters hf).encode s = s.map f :=
  List.map_eq_flatMap.symm

def utf8 : Encoding Char UInt8 where
  word := String.utf8EncodeChar
  word_ne_nil _ := String.utf8EncodeChar_ne_nil
  front {c d x y} h := by
    have hc := Utf8.front?_encodeChar c x
    rw [h, Utf8.front?_encodeChar d y] at hc
    exact (Option.some.inj hc).symm

theorem mark_utf8 {c : Char} (h : c.toNat < 0x80) : utf8.Mark c (UInt8.ofNat c.toNat) where
  word := Utf8.encodeChar_of_ascii h
  alone d hd := by
    have ha : UInt8.ofNat c.toNat < 0x80 := by
      rw [UInt8.lt_iff_toNat_lt, UInt8.toNat_ofNat', Nat.mod_eq_of_lt (by omega)]
      exact h
    exact Utf8.encodeChar_inj ((Utf8.encodeChar_ascii hd ha).trans (Utf8.encodeChar_of_ascii h).symm)

/-- The code units of a character: itself, or a high and a low surrogate. -/
def utf16EncodeChar (c : Char) : List UInt16 :=
  if c.toNat < 0x10000 then [UInt16.ofNat c.toNat]
  else [UInt16.ofNat (0xD800 + (c.toNat - 0x10000) / 0x400), UInt16.ofNat (0xDC00 + (c.toNat - 0x10000) % 0x400)]

theorem ofNat16_inj {m n : Nat} (hm : m < 0x10000) (hn : n < 0x10000) (h : UInt16.ofNat m = UInt16.ofNat n) : m = n := by
  have := congrArg UInt16.toNat h
  rwa [UInt16.toNat_ofNat', UInt16.toNat_ofNat', Nat.mod_eq_of_lt hm, Nat.mod_eq_of_lt hn] at this

/-- No character is a surrogate. -/
theorem toNat_range (c : Char) : c.toNat < 0xD800 ∨ (0xDFFF < c.toNat ∧ c.toNat < 0x110000) := c.valid

theorem utf16_front {c d : Char} {x y : List UInt16} (h : utf16EncodeChar c ++ x = utf16EncodeChar d ++ y) : c = d := by
  have hc := toNat_range c
  have hd := toNat_range d
  apply Char.toNat_inj.1
  unfold utf16EncodeChar at h
  by_cases hc16 : c.toNat < 0x10000 <;> by_cases hd16 : d.toNat < 0x10000 <;>
    simp only [hc16, hd16, if_true, if_false, List.cons_append, List.nil_append, List.cons.injEq] at h
  · exact ofNat16_inj hc16 hd16 h.1
  · -- a unit that is no surrogate in front of a high one
    have := ofNat16_inj hc16 (by omega) h.1
    omega
  · have := ofNat16_inj (by omega) hd16 h.1
    omega
  · have hhigh := ofNat16_inj (by omega) (by omega) h.1
    have hlow := ofNat16_inj (by omega) (by omega) h.2.1
    omega

def utf16 : Encoding Char UInt16 where
  word := utf16EncodeChar
  word_ne_nil c := by
    unfold utf16EncodeChar
    split <;> exact List.cons_ne_nil _ _
  front := utf16_front

theorem mark_utf16 {c : Char} (h : c.toNat < 0xD800) : utf16.Mark c (UInt16.ofNat c.toNat) where
  word := if_pos (by omega)
  alone d hd := by
    have hrange := toNat_range d
    apply Char.toNat_inj.1
    change _ ∈ utf16EncodeChar d at hd
    unfold utf16EncodeChar at hd
    split at hd
    · exact (ofNat16_inj (by omega) (by omega) (List.mem_singleton.1 hd)).symm
    · rcases List.mem_cons.1 hd with hd | hd
      · have := ofNat16_inj (by omega) (by omega) hd
        omega
      · have := ofNat16_inj (by omega) (by omega) (List.mem_singleton.1 hd)
        omega

/-! ## Reading UTF-16 -/

/-- A high surrogate. -/
def High (u : UInt16) : Prop := 0xD800 ≤ u.toNat ∧ u.toNat < 0xDC00

/-- A low surrogate. -/
def Low (u : UInt16) : Prop := 0xDC00 ≤ u.toNat ∧ u.toNat < 0xE000

instance (u : UInt16) : Decidable (High u) := inferInstanceAs (Decidable (_ ∧ _))
instance (u : UInt16) : Decidable (Low u) := inferInstanceAs (Decidable (_ ∧ _))

/-- The characters of code units; a surrogate outside a pair is read as `replacement`. -/
def decode16 (replacement : Char) : List UInt16 → List Char
  | [] => []
  | [u] => if High u ∨ Low u then [replacement] else [Char.ofNat u.toNat]
  | u :: v :: us =>
    if High u ∧ Low v then
      Char.ofNat (0x10000 + (u.toNat - 0xD800) * 0x400 + (v.toNat - 0xDC00)) :: decode16 replacement us
    else if High u ∨ Low u then replacement :: decode16 replacement (v :: us)
    else Char.ofNat u.toNat :: decode16 replacement (v :: us)

section
variable {replacement : Char}

/-- A unit that is no surrogate is a character of its own. -/
theorem decode16_unit {u : UInt16} (hu : ¬ (High u ∨ Low u)) (us : List UInt16) :
    decode16 replacement (u :: us) = Char.ofNat u.toNat :: decode16 replacement us := by
  cases us with
  | nil => simp [decode16, hu]
  | cons v us => rw [decode16, if_neg (fun h => hu (.inl h.1)), if_neg hu]

theorem decode16_pair {u v : UInt16} (hu : High u) (hv : Low v) (us : List UInt16) :
    decode16 replacement (u :: v :: us) =
      Char.ofNat (0x10000 + (u.toNat - 0xD800) * 0x400 + (v.toNat - 0xDC00)) :: decode16 replacement us :=
  if_pos ⟨hu, hv⟩

theorem decode16_encodeChar (c : Char) (us : List UInt16) :
    decode16 replacement (utf16EncodeChar c ++ us) = c :: decode16 replacement us := by
  have hrange := toNat_range c
  unfold utf16EncodeChar
  by_cases hc : c.toNat < 0x10000
  · have hu : (UInt16.ofNat c.toNat).toNat = c.toNat := by rw [UInt16.toNat_ofNat', Nat.mod_eq_of_lt hc]
    rw [if_pos hc, List.singleton_append, decode16_unit (by simp only [High, Low, hu]; omega), hu, Char.ofNat_toNat]
  · have hhigh : (UInt16.ofNat (0xD800 + (c.toNat - 0x10000) / 0x400)).toNat =
        0xD800 + (c.toNat - 0x10000) / 0x400 := by
      rw [UInt16.toNat_ofNat', Nat.mod_eq_of_lt (by omega)]
    have hlow : (UInt16.ofNat (0xDC00 + (c.toNat - 0x10000) % 0x400)).toNat =
        0xDC00 + (c.toNat - 0x10000) % 0x400 := by
      rw [UInt16.toNat_ofNat', Nat.mod_eq_of_lt (by omega)]
    have hc' : 0x10000 + (c.toNat - 0x10000) / 0x400 * 0x400 + (c.toNat - 0x10000) % 0x400 = c.toNat := by omega
    rw [if_neg hc, List.cons_append, List.singleton_append,
      decode16_pair (by simp only [High, hhigh]; omega) (by simp only [Low, hlow]; omega), hhigh, hlow,
      Nat.add_sub_cancel_left, Nat.add_sub_cancel_left, hc', Char.ofNat_toNat]

/-- Decoding undoes encoding. -/
theorem decode16_encode (cs : List Char) : decode16 replacement (utf16.encode cs) = cs := by
  induction cs with
  | nil => rfl
  | cons c cs ih =>
    rw [encode_cons]
    exact (decode16_encodeChar c _).trans (congrArg _ ih)

/-- No pair reaches over a unit that is no surrogate. -/
theorem decode16_append {u : UInt16} (hu : ¬ (High u ∨ Low u)) (us vs : List UInt16) :
    decode16 replacement (us ++ u :: vs) = decode16 replacement us ++ decode16 replacement (u :: vs) := by
  have hlow : ¬ Low u := fun h => hu (.inr h)
  induction us using decode16.induct with
  | case1 => rfl
  | case2 a ha => simp [decode16, hlow, ha]
  | case3 a ha => rw [List.singleton_append, decode16_unit ha, decode16, if_neg ha, List.singleton_append]
  | case4 a b us hpair ih =>
    rw [List.cons_append, List.cons_append, decode16_pair hpair.1 hpair.2, decode16_pair hpair.1 hpair.2, ih,
      List.cons_append]
  | case5 a b us hpair hlone ih =>
    rw [List.cons_append] at ih ⊢
    rw [List.cons_append, decode16, if_neg hpair, if_pos hlone, ih, decode16, if_neg hpair, if_pos hlone,
      List.cons_append]
  | case6 a b us hpair hlone ih =>
    rw [List.cons_append, decode16_unit hlone, ih, decode16_unit hlone, List.cons_append]

/-- Text behind a string that a character outside the surrogates begins. -/
theorem decode16_append_encode {c : Char} (hc : c.toNat < 0xD800) (us : List UInt16) (cs : List Char) :
    decode16 replacement (us ++ utf16.encode (c :: cs)) = decode16 replacement us ++ c :: cs := by
  have hu : (UInt16.ofNat c.toNat).toNat = c.toNat := by rw [UInt16.toNat_ofNat', Nat.mod_eq_of_lt (by omega)]
  have hunits : utf16.encode (c :: cs) = UInt16.ofNat c.toNat :: utf16.encode cs := by
    rw [encode_cons, (mark_utf16 hc).word, List.singleton_append]
  have hlone : ¬ (High (UInt16.ofNat c.toNat) ∨ Low (UInt16.ofNat c.toNat)) := by
    simp only [High, Low, hu]
    omega
  rw [hunits, decode16_append hlone, ← hunits, decode16_encode]

end

end Encoding
end Lib
