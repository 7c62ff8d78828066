import AnyCase.Proofs.Text.Utf8
import Mathlib.Data.List.Induction
import Mathlib.Tactic.Push

/-!
# The end of a shown text

Bytes that are shown may be ill-formed, and a replacement character can stand for several of them. None of
that reaches an ASCII byte: it ends whatever the reader is in the middle of and comes out as itself, and no
other byte brings out an ASCII character. So the shown text ends in an ASCII text exactly when the bytes end in
its encoding (`isSuffix_display_iff`).
-/

namespace AnyCase.Utf8

namespace Reader

/-- What the reader shows if there are no more bytes. -/
def shown (r : Reader) : Text :=
  r.finish.map fun p => p.char?.getD replacement

/-- The character that the reader is in comes from bytes it read, and takes no ASCII byte. -/
def Sound (r : Reader) : Prop :=
  ∀ p, r.pending = some p → 0x80 ≤ p.low.toNat ∧ ∃ front, Promise front p.bits p.low p.high p.due

theorem sound_of_idle (parts : List Part) : Sound ⟨parts, none⟩ := by
  intro p hp
  cases hp

theorem low_of_lead? {b : UInt8} {p : Pending} (hp : lead? b = some p) : 0x80 ≤ p.low.toNat := by
  rcases lead?_cases hp with ⟨hmin, hmax⟩ | ⟨hmin, hmax⟩ | ⟨hmin, hmax⟩
  · rw [lead?_of_two hmin hmax] at hp
    obtain rfl := Option.some.inj hp
    simp
  · rw [lead?_of_three hmin hmax] at hp
    obtain rfl := Option.some.inj hp
    simp only [toNat_ite_eq, UInt8.reduceToNat]
    split <;> omega
  · rw [lead?_of_four hmin hmax] at hp
    obtain rfl := Option.some.inj hp
    simp only [toNat_ite_eq, UInt8.reduceToNat]
    split <;> omega

theorem begin_sound (parts : List Part) (b : UInt8) : Sound (begin parts b) := by
  rw [begin]
  split
  · exact sound_of_idle _
  · cases hlead : lead? b with
    | none => exact sound_of_idle _
    | some p =>
      intro p' hp'
      obtain rfl := Option.some.inj hp'
      exact ⟨low_of_lead? hlead, [b], promise_of_lead? hlead⟩

theorem Sound.push {r : Reader} (hr : r.Sound) (b : UInt8) : (r.push b).Sound := by
  obtain ⟨parts, _ | ⟨bits, low, high, due⟩⟩ := r
  · exact begin_sound parts b
  · obtain ⟨-, front, hfront⟩ := hr _ rfl
    by_cases hb : low.toNat ≤ b.toNat ∧ b.toNat ≤ high.toNat
    · cases due with
      | zero =>
        rw [push_last hb.1 hb.2]
        exact sound_of_idle _
      | succ due =>
        rw [push_inner hb.1 hb.2]
        intro p hp
        obtain rfl := Option.some.inj hp
        exact ⟨by simp, front ++ [b], hfront b hb.1 hb.2⟩
    · simp only [Reader.push, UInt8.le_iff_toNat_le, if_neg hb]
      exact begin_sound _ b

theorem Sound.foldl_push {r : Reader} (hr : r.Sound) (bytes : Bytes) : (bytes.foldl Reader.push r).Sound := by
  induction bytes generalizing r with
  | nil => exact hr
  | cons b bytes ih => exact ih (hr.push b)

/-- Giving up the character that the reader is in shows as nothing new: it was shown as ill-formed already. -/
theorem shown_push_of_refused {r : Reader} {b : UInt8}
    (hrefused : ∀ p, r.pending = some p → ¬ (p.low.toNat ≤ b.toNat ∧ b.toNat ≤ p.high.toNat)) :
    (r.push b).shown = r.shown ++ (begin [] b).shown := by
  have hbegin : ∀ parts, (begin parts b).shown = (⟨parts, none⟩ : Reader).shown ++ (begin [] b).shown := by
    intro parts
    by_cases hb : b < 0x80
    · simp [begin, hb, shown, finish]
    · cases hlead : lead? b <;> simp [begin, hb, hlead, shown, finish]
  obtain ⟨parts, _ | p⟩ := r
  · exact hbegin parts
  · simp only [Reader.push, UInt8.le_iff_toNat_le, if_neg (hrefused p rfl)]
    exact hbegin (.illFormed :: parts)

theorem shown_push_ascii {r : Reader} (hr : r.Sound) {b : UInt8} (hb : b.toNat < 0x80) :
    (r.push b).shown = r.shown ++ [Char.ofNat b.toNat] := by
  have hrefused : ∀ p, r.pending = some p → ¬ (p.low.toNat ≤ b.toNat ∧ b.toNat ≤ p.high.toNat) := by
    intro p hp
    have hlow := (hr p hp).1
    omega
  have hbegin : begin [] b = ⟨[.char (Char.ofNat b.toNat)], none⟩ := push_ascii hb
  rw [shown_push_of_refused hrefused, hbegin]
  rfl

theorem shown_push_of_le {r : Reader} (hr : r.Sound) {b : UInt8} (hb : 0x80 ≤ b.toNat) :
    ∃ t c, (r.push b).shown = t ++ [c] ∧ 0x80 ≤ c.toNat := by
  by_cases hrefused : ∀ p, r.pending = some p → ¬ (p.low.toNat ≤ b.toNat ∧ b.toNat ≤ p.high.toNat)
  · refine ⟨r.shown, replacement, ?_, by decide⟩
    have hnot : ¬ b < 0x80 := by
      simp only [UInt8.lt_iff_toNat_lt, UInt8.reduceToNat]
      omega
    rw [shown_push_of_refused hrefused]
    cases hlead : lead? b <;> simp [begin, hnot, hlead, shown, finish, Part.char?]
  · push Not at hrefused
    obtain ⟨p, hp, hlow, hhigh⟩ := hrefused
    obtain ⟨-, front, hfront⟩ := hr p hp
    obtain ⟨parts, pending⟩ := r
    obtain rfl : pending = some p := hp
    obtain ⟨bits, low, high, due⟩ := p
    cases due with
    | zero =>
      rw [push_last hlow hhigh]
      refine ⟨(⟨parts, none⟩ : Reader).shown, Char.ofNat (bits * 64 + b.toNat % 64), ?_, ?_⟩
      · simp [shown, finish, Part.char?]
      · exact le_toNat_of_utf8EncodeChar (hfront b hlow hhigh) hb
    | succ due =>
      rw [push_inner hlow hhigh]
      refine ⟨(⟨parts, none⟩ : Reader).shown, replacement, ?_, by decide⟩
      simp [shown, finish, Part.char?]

end Reader

theorem display_append_ascii (bytes : Bytes) {b : UInt8} (hb : b.toNat < 0x80) :
    display (bytes ++ [b]) = display bytes ++ [Char.ofNat b.toNat] := by
  have hsound := (Reader.sound_of_idle []).foldl_push bytes
  rw [display, parts, List.foldl_append, List.foldl_cons, List.foldl_nil]
  exact Reader.shown_push_ascii hsound hb

theorem display_append_of_le (bytes : Bytes) {b : UInt8} (hb : 0x80 ≤ b.toNat) :
    ∃ t c, display (bytes ++ [b]) = t ++ [c] ∧ 0x80 ≤ c.toNat := by
  have hsound := (Reader.sound_of_idle []).foldl_push bytes
  rw [display, parts, List.foldl_append, List.foldl_cons, List.foldl_nil]
  exact Reader.shown_push_of_le hsound hb

theorem concat_suffix_display_iff (s : Text) {c : Char} (hc : c.toNat < 0x80) (bytes : Bytes) (b : UInt8) :
    s ++ [c] <:+ display (bytes ++ [b]) ↔ s <:+ display bytes ∧ UInt8.ofNat c.toNat = b := by
  by_cases hb : b.toNat < 0x80
  · rw [display_append_ascii bytes hb, List.suffix_append_inj_of_length_eq (by rfl), List.singleton_inj,
      ofNat_toNat_eq_iff hc hb]
  · obtain ⟨t, d, hshown, hd⟩ := display_append_of_le bytes (b := b) (by omega)
    have hne : c ≠ d := by
      rintro rfl
      omega
    have hne' : UInt8.ofNat c.toNat ≠ b := by
      rintro rfl
      rw [UInt8.toNat_ofNat'] at hb
      omega
    rw [hshown, List.suffix_append_inj_of_length_eq (by rfl), List.singleton_inj]
    simp only [hne, hne', and_false]

/-- A shown text ends in an ASCII text exactly when the bytes end in its encoding. -/
theorem isSuffix_display_iff {s : Text} (hs : ∀ c ∈ s, c.toNat < 0x80) (bytes : Bytes) :
    s <:+ display bytes ↔ encode s <:+ bytes := by
  induction s using List.reverseRecOn generalizing bytes with
  | nil => simp
  | append_singleton s c ih =>
    have hc : c.toNat < 0x80 := hs c (by simp)
    rw [encode_append, encode_cons, encode_nil, List.append_nil, utf8EncodeChar_ascii hc]
    rcases List.eq_nil_or_concat bytes with rfl | ⟨bytes, b, rfl⟩
    · have hshown : display [] = [] := rfl
      simp [hshown]
    · rw [List.concat_eq_append, concat_suffix_display_iff s hc, ih (fun d hd => hs d (by simp [hd])),
        List.suffix_append_inj_of_length_eq (by rfl), List.singleton_inj]

end AnyCase.Utf8
