import KnotLink.Lib.Split
import KnotLink.Python.Querier
/-!
# Channels

The senders put `APPID-ID&*&` in front of the data, the subscribers and responsers register with `APPID-ID`; nothing
is escaped and no id is refused. So an app id that goes on behind a `-` can stand for another channel, and an id that
holds the delimiter hides where the data begin. `channels_unambiguous`: apart from that, what is sent tells the
channel and the data.
-/
namespace KnotLink.Python
open Lib

/-- The `s_data` of `emitt` (SignalSender.py:21-34). -/
def SignalSender.sData (APPID SignalID : Option PyStr) (data : PyStr) : Option Bytes :=
  match encodeUtf8 data with
  | none => none
  | some data =>
    match encodeUtf8 (format APPID ++ str "-" ++ format SignalID ++ str "&*&") with
    | none => none
    | some sKeyBytes => some (sKeyBytes ++ data)

/-- The `s_key_bytes` of `subscribe` (SignalSubscriber.py:30-31) and of the responser's `init`
(OpenSocketResponser.py:27-28). -/
def sKeyBytes (APPID ID : PyStr) : Option Bytes := encodeUtf8 (APPID ++ str "-" ++ ID)

/-- The second app id is the first one, a `-` and a text with which the first signal id begins in front of the
second one: both are written as the same channel. -/
def Shifted (APPID ID APPID' ID' : PyStr) : Prop := ∃ x, APPID' = APPID ++ str "-" ++ x ∧ ID = x ++ str "-" ++ ID'

/-- What the texts `APPID-ID` do not tell apart. -/
def SameChannel (APPID ID APPID' ID' : PyStr) : Prop :=
  (APPID = APPID' ∧ ID = ID') ∨ Shifted APPID ID APPID' ID' ∨ Shifted APPID' ID' APPID ID

variable {A S D A' S' D' : PyStr} {b b' k k' : Bytes}

theorem encodeUtf8_inj {s t : PyStr} (hs : encodeUtf8 s = some b) (ht : encodeUtf8 t = some b) : s = t :=
  Option.some.inj ((decodeUtf8_encode hs).symm.trans (decodeUtf8_encode ht))

theorem sameChannel_iff : A ++ str "-" ++ S = A' ++ str "-" ++ S' ↔ SameChannel A S A' S' := by
  rw [show str "-" = [.scalar '-'] by decide, List.append_assoc, List.append_assoc, List.singleton_append,
    List.singleton_append, joined_eq_iff, SameChannel, Shifted, Shifted]
  simp [str, text]

theorem sData_eq_some : SignalSender.sData (some A) (some S) D = some b ↔
    ∃ k d, sKeyBytes A S = some k ∧ encodeUtf8 D = some d ∧ b = k ++ DELIMITER ++ d := by
  unfold SignalSender.sData sKeyBytes
  constructor
  · intro h
    split at h
    · cases h
    · rename_i d hd
      split at h
      · cases h
      · rename_i key hkey
        cases h
        obtain ⟨k, p, hk, hp, rfl⟩ := encodeUtf8_append_eq_some.1 hkey
        obtain rfl : DELIMITER = p := Option.some.inj (encodeUtf8_delimiter.symm.trans hp)
        exact ⟨k, d, hk, hd, rfl⟩
  · rintro ⟨k, d, hk, hd, rfl⟩
    simp only [hd, format, encodeUtf8_append hk encodeUtf8_delimiter]

/-- The routing part of a packet is what its channel's subscribers register with. -/
theorem cut?_sData (hkey : Key (A ++ str "-" ++ S)) (hb : SignalSender.sData (some A) (some S) D = some b) :
    ∃ k d, sKeyBytes A S = some k ∧ encodeUtf8 D = some d ∧ cut? DELIMITER b = some (k, d) := by
  obtain ⟨k, d, hk, hd, rfl⟩ := sData_eq_some.1 hb
  obtain ⟨hin, hend⟩ := hkey.bytes hk
  exact ⟨k, d, hk, hd, (cut?_delimiter (by decide)).2 ⟨rfl, hin, hend⟩⟩

/-- Queriers pack as senders do. -/
theorem queryMessage_eq_ok {APPID OpenSocketID : Option PyStr} {data : PyStr} :
    queryMessage APPID OpenSocketID data = .ok b ↔ SignalSender.sData APPID OpenSocketID data = some b := by
  unfold queryMessage SignalSender.sData
  cases encodeUtf8 data with
  | none => simp
  | some d => cases encodeUtf8 (format APPID ++ str "-" ++ format OpenSocketID ++ str "&*&") <;> simp

/-- Without a `-` in the app ids the channel is told. -/
theorem sameChannel_of_no_dash (hA : .scalar '-' ∉ A) (hA' : .scalar '-' ∉ A') :
    SameChannel A S A' S' ↔ A = A' ∧ S = S' := by
  constructor
  · rintro (h | ⟨x, rfl, -⟩ | ⟨x, rfl, -⟩)
    · exact h
    · exact absurd (by simp [str, text]) hA'
    · exact absurd (by simp [str, text]) hA
  · exact .inl

/-- **Packets tell their data, and their channel as far as `APPID-ID` does**, if that part of each neither holds the
delimiter nor ends in `&*`; packets of queriers are the same ones. What subscribers and responsers register with
tells the channel just as far, and it is the routing part of the channel's packets. -/
theorem channels_unambiguous :
    (∀ (A S D A' S' D' : PyStr) (b b' : Bytes), SignalSender.sData (some A) (some S) D = some b →
      SignalSender.sData (some A') (some S') D' = some b' → Key (A ++ str "-" ++ S) → Key (A' ++ str "-" ++ S') →
      (b = b' ↔ D = D' ∧ SameChannel A S A' S')) ∧
    (∀ (A S D A' S' : PyStr) (b k' : Bytes), SignalSender.sData (some A) (some S) D = some b →
      sKeyBytes A' S' = some k' → Key (A ++ str "-" ++ S) →
      ((cut? DELIMITER b).map Prod.fst = some k' ↔ SameChannel A S A' S')) ∧
    (∀ (A S : Option PyStr) (D : PyStr) (b : Bytes),
      queryMessage A S D = .ok b ↔ SignalSender.sData A S D = some b) ∧
    (∀ A S A' S' : PyStr, .scalar '-' ∉ A → .scalar '-' ∉ A' → (SameChannel A S A' S' ↔ A = A' ∧ S = S')) := by
  refine ⟨fun A S D A' S' D' b b' hb hb' hkey hkey' => ?_, fun A S D A' S' b k' hb hk' hkey => ?_,
    fun A S D b => queryMessage_eq_ok, fun A S A' S' => sameChannel_of_no_dash⟩
  · obtain ⟨k, d, hk, hd, hcut⟩ := cut?_sData hkey hb
    obtain ⟨k', d', hk', hd', hcut'⟩ := cut?_sData hkey' hb'
    rw [← sameChannel_iff]
    constructor
    · rintro rfl
      obtain ⟨rfl, rfl⟩ := Prod.mk.inj (Option.some.inj (hcut.symm.trans hcut'))
      exact ⟨encodeUtf8_inj hd hd', encodeUtf8_inj hk hk'⟩
    · rintro ⟨rfl, hchannel⟩
      unfold sKeyBytes at hk
      rw [hchannel] at hk
      obtain rfl : k = k' := Option.some.inj (hk.symm.trans hk')
      obtain rfl : d = d' := Option.some.inj (hd.symm.trans hd')
      exact ((cut?_delimiter (by decide)).1 hcut).1.trans ((cut?_delimiter (by decide)).1 hcut').1.symm
  · obtain ⟨k, d, hk, -, hcut⟩ := cut?_sData hkey hb
    rw [hcut, Option.map_some, Option.some.injEq, ← sameChannel_iff]
    constructor
    · rintro rfl
      exact encodeUtf8_inj hk hk'
    · intro hchannel
      unfold sKeyBytes at hk
      rw [hchannel] at hk
      exact Option.some.inj (hk.symm.trans hk')

/-- Two channels with a `-` in the signal ids, and the delimiter in the data. -/
theorem channels_unambiguous_dash : ∃ b b', SignalSender.sData (some (str "a")) (some (str "b-c")) (str "&*&") = some b ∧
    SignalSender.sData (some (str "d")) (some (str "b-c")) (str "&*&") = some b' ∧ b ≠ b' := by
  have hb : SignalSender.sData (some (str "a")) (some (str "b-c")) (str "&*&") = some (ascii "a-b-c&*&&*&") := by decide
  have hb' : SignalSender.sData (some (str "d")) (some (str "b-c")) (str "&*&") = some (ascii "d-b-c&*&&*&") := by decide
  refine ⟨_, _, hb, hb', fun heq => ?_⟩
  have hsame := ((channels_unambiguous.1 _ _ _ _ _ _ _ _ hb hb' (by decide) (by decide)).1 heq).2
  have := ((channels_unambiguous.2.2.2 _ _ _ _ (by decide) (by decide)).1 hsame).1
  revert this
  decide

/-- A `-` in an app id, or the delimiter in a signal id: one packet for two channels, or for two data. -/
theorem channels_collide :
    (¬ ∀ (A S D A' S' D' : PyStr) (b : Bytes), SignalSender.sData (some A) (some S) D = some b →
      SignalSender.sData (some A') (some S') D' = some b → A = A' ∧ S = S' ∧ D = D') ∧
    (¬ ∀ (A S A' S' : PyStr) (k : Bytes), sKeyBytes A S = some k → sKeyBytes A' S' = some k → A = A' ∧ S = S') ∧
    ∃ b, SignalSender.sData (some (str "a")) (some (str "b&*&c")) (str "x") = some b ∧
      SignalSender.sData (some (str "a")) (some (str "b")) (str "c&*&x") = some b := by
  refine ⟨fun h => ?_, fun h => ?_, ⟨ascii "a-b&*&c&*&x", by decide, by decide⟩⟩
  · have := (h (str "a") (str "b-c") (str "x") (str "a-b") (str "c") (str "x") (ascii "a-b-c&*&x") (by decide)
      (by decide)).1
    revert this
    decide
  · have := (h (str "a") (str "b-c") (str "a-b") (str "c") (ascii "a-b-c") (by decide) (by decide)).1
    revert this
    decide

end KnotLink.Python
