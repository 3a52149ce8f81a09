import KnotLink.Lib.Bytes
import KnotLink.Lib.Framing
import KnotLink.Lib.Run
/-!
# Writers on one channel

Several writers put the frames of their messages on one channel, each piece by piece. A writer is its
message and how much of its frame it has written. `Channel` says that the frames are whole: the channel
holds the frames of the writers that have finished, in some order, and behind them what one writer has
written of its frame, if one is part-way. It stays so as long as a writer writes only while no other one
is part-way (`Channel.write`).
-/
namespace Lib.Codec
variable {β μ : Type} (F : Codec β μ)

/-- Some of the frame is written, and some is not. -/
def Partway (w : μ × Nat) : Prop := w.2 ≠ 0 ∧ w.2 < (F.encode w.1).length

instance (w : μ × Nat) : Decidable (F.Partway w) := inferInstanceAs (Decidable (_ ∧ _))

/-- The message of a writer that has written all of its frame. -/
def finished? (w : μ × Nat) : Option μ := if w.2 = (F.encode w.1).length then some w.1 else none

/-- Since `base` the frames of `done` were written, those of the writers that have finished, and then
`part`, what the writer that is part-way has written. -/
structure Channel (base out : List β) (ws : List (μ × Nat)) (done : List μ) (part : List β) : Prop where
  eq : out = base ++ F.encodeAll done ++ part
  finished : done.Perm (ws.filterMap F.finished?)
  part_eq : ∀ {k : Nat} {w : μ × Nat}, ws[k]? = some w → F.Partway w → part = (F.encode w.1).take w.2
  part_of : part = [] ∨ ∃ (k : Nat) (w : μ × Nat), ws[k]? = some w ∧ F.Partway w

variable {F} {base out part : List β} {ws : List (μ × Nat)} {done : List μ}

theorem finished?_zero (m : μ) : F.finished? (m, 0) = none :=
  if_neg (Nat.ne_of_lt (List.length_pos_iff.2 (F.encode_ne_nil m)))

theorem Channel.nil : F.Channel base base [] [] [] :=
  ⟨by simp, .refl _, by simp, .inl rfl⟩

/-- A writer that has written nothing yet. -/
theorem Channel.join (h : F.Channel base out ws done part) (m : μ) :
    F.Channel base out (ws ++ [(m, 0)]) done part := by
  refine ⟨h.eq, ?_, ?_, h.part_of.imp id ?_⟩
  · rw [List.filterMap_append, List.filterMap_cons_none (finished?_zero m), List.filterMap_nil, List.append_nil]
    exact h.finished
  · intro k w hk hw
    rcases getElem?_concat_iff.1 hk with ⟨-, rfl⟩ | hk
    · exact absurd rfl hw.1
    · exact h.part_eq hk hw
  · rintro ⟨k, w, hk, hw⟩
    exact ⟨k, w, getElem?_concat_iff.2 (.inr hk), hw⟩

/-- With nobody part-way there is nothing behind the frames. -/
theorem Channel.part_nil (h : F.Channel base out ws done part)
    (hno : ∀ (k : Nat) (w : μ × Nat), ws[k]? = some w → ¬ F.Partway w) : part = [] := by
  rcases h.part_of with hp | ⟨k, w, hk, hw⟩
  · exact hp
  · exact absurd hw (hno k w hk)

/-- What is on a channel whose writers stand for calls: the frames of the calls that have finished, and what one
call has written of its frame. -/
theorem Channel.of_calls {γ : Type} {calls : List γ} {writer : γ → μ × Nat}
    (h : F.Channel base out (calls.map writer) done part) :
    done.Perm (calls.filterMap (F.finished? ∘ writer)) ∧
      (part = [] ∨ ∃ (k : Nat) (c : γ), calls[k]? = some c ∧ F.Partway (writer c) ∧
        part = (F.encode (writer c).1).take (writer c).2 ∧ part.length < (F.encode (writer c).1).length) := by
  refine ⟨List.filterMap_map ▸ h.finished, h.part_of.imp id ?_⟩
  rintro ⟨k, w, hk, hway⟩
  have hpart := h.part_eq hk hway
  rw [List.getElem?_map, Option.map_eq_some_iff] at hk
  obtain ⟨c, hc, rfl⟩ := hk
  refine ⟨k, c, hc, hway, hpart, ?_⟩
  rw [hpart]
  exact Nat.lt_of_le_of_lt (List.length_take_le _ _) hway.2

/-- The next piece of one writer's frame, the others not being part-way. -/
theorem Channel.write (h : F.Channel base out ws done part) {k n n' : Nat} {m : μ} (hk : ws[k]? = some (m, n))
    (hn : n < n') (hn' : n' ≤ (F.encode m).length)
    (hothers : ∀ (j : Nat) (w : μ × Nat), ws[j]? = some w → F.Partway w → j = k) : ∃ done' part',
    F.Channel base (out ++ slice (F.encode m) n n') (ws.set k (m, n')) done' part' := by
  -- what is part-way on the channel is the writer's own
  have hmine : part = (F.encode m).take n := by
    by_cases h0 : n = 0
    · rw [h0, List.take_zero]
      refine h.part_nil ?_
      intro j w hj hw
      obtain rfl := hothers j w hj hw
      obtain rfl := Option.some.inj (hk.symm.trans hj)
      exact hw.1 h0
    · exact h.part_eq hk ⟨h0, Nat.lt_of_lt_of_le hn hn'⟩
  have hout : out ++ slice (F.encode m) n n' = base ++ F.encodeAll done ++ (F.encode m).take n' := by
    rw [h.eq, hmine, List.append_assoc, take_append_slice _ (Nat.le_of_lt hn)]
  have hold : ∀ {j : Nat} {w : μ × Nat}, (ws.set k (m, n'))[j]? = some w → F.Partway w → j = k ∧ w = (m, n') := by
    intro j w hj hw
    rcases (getElem?_set_iff hk).1 hj with h | ⟨hjk, hj⟩
    · exact h
    · exact absurd (hothers j w hj hw) hjk
  have hfinished := filterMap_set_perm (f := F.finished?) (q := (m, n')) hk
    (if_neg (Nat.ne_of_lt (Nat.lt_of_lt_of_le hn hn')))
  by_cases hend : n' = (F.encode m).length
  · refine ⟨done ++ [m], [], ?_, ?_, ?_, .inl rfl⟩
    · rw [hout, List.take_of_length_le (Nat.le_of_eq hend.symm)]
      simp
    · rw [finished?, if_pos hend, Option.toList_some] at hfinished
      exact (h.finished.append_right [m]).trans hfinished.symm
    · intro j w hj hw
      obtain ⟨-, rfl⟩ := hold hj hw
      exact absurd hend (Nat.ne_of_lt hw.2)
  · refine ⟨done, (F.encode m).take n', hout, ?_, ?_, .inr ⟨k, (m, n'), ?_, ?_, ?_⟩⟩
    · rw [finished?, if_neg hend, Option.toList_none, List.append_nil] at hfinished
      exact h.finished.trans hfinished.symm
    · intro j w hj hw
      obtain ⟨-, rfl⟩ := hold hj hw
      rfl
    · exact (getElem?_set_iff hk).2 (.inl ⟨rfl, rfl⟩)
    · exact Nat.ne_of_gt (Nat.zero_lt_of_lt hn)
    · exact Nat.lt_of_le_of_ne hn' hend

end Lib.Codec
