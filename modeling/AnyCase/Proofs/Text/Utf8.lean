import AnyCase.Text.Basic
import Mathlib.Tactic.ByContra

/-!
# Well-formed bytes are encodings

The reader takes bytes one at a time and never looks back; what it accepts is said without it. A sequence of bytes is
well-formed exactly when it is the encoding of a text, and it is then read as that text (`decode?_eq_some_iff`). An
ASCII byte stands in an encoding exactly if its character stands in the text (`mem_encode_iff`).
-/

/-!
## The reader and the encoding

One direction follows the encoding of a character through the reader (`foldl_push_utf8EncodeChar`). For the
other, a character that the reader is in the middle of is a promise: whichever bytes complete it in its bounds,
they and the bytes before them are the encoding of the character that comes out (`Promise`).
-/

namespace AnyCase.Utf8

theorem toNat_ite_eq (b x y z : UInt8) :
    (if b = x then y else z).toNat = if b.toNat = x.toNat then y.toNat else z.toNat := by
  simp only [UInt8.toNat_inj]
  split <;> rfl

variable {parts : List Part} {b : UInt8}

/-! ### Steps of the reader -/

theorem lead?_of_two (hlow : 0xC2 ≤ b.toNat) (hhigh : b.toNat < 0xE0) :
    lead? b = some ⟨b.toNat % 32, 0x80, 0xBF, 0⟩ := by
  simp only [lead?, UInt8.lt_iff_toNat_lt, UInt8.reduceToNat]
  rw [if_neg (by omega), if_pos hhigh]

theorem lead?_of_three (hlow : 0xE0 ≤ b.toNat) (hhigh : b.toNat < 0xF0) :
    lead? b = some ⟨b.toNat % 16, if b = 0xE0 then 0xA0 else 0x80, if b = 0xED then 0x9F else 0xBF, 1⟩ := by
  simp only [lead?, UInt8.lt_iff_toNat_lt, UInt8.reduceToNat]
  rw [if_neg (by omega), if_neg (by omega), if_pos hhigh]

theorem lead?_of_four (hlow : 0xF0 ≤ b.toNat) (hhigh : b.toNat < 0xF5) :
    lead? b = some ⟨b.toNat % 8, if b = 0xF0 then 0x90 else 0x80, if b = 0xF4 then 0x8F else 0xBF, 2⟩ := by
  simp only [lead?, UInt8.lt_iff_toNat_lt, UInt8.reduceToNat]
  rw [if_neg (by omega), if_neg (by omega), if_neg (by omega), if_pos hhigh]

/-- What the first byte of a character of several bytes can be. -/
theorem lead?_cases {p : Pending} (hp : lead? b = some p) :
    (0xC2 ≤ b.toNat ∧ b.toNat < 0xE0) ∨ (0xE0 ≤ b.toNat ∧ b.toNat < 0xF0) ∨
      (0xF0 ≤ b.toNat ∧ b.toNat < 0xF5) := by
  simp only [lead?, UInt8.lt_iff_toNat_lt, UInt8.reduceToNat] at hp
  split at hp
  · cases hp
  · split at hp
    · omega
    · split at hp
      · omega
      · split at hp
        · omega
        · cases hp

namespace Reader

theorem push_ascii (hb : b.toNat < 0x80) :
    push ⟨parts, none⟩ b = ⟨.char (Char.ofNat b.toNat) :: parts, none⟩ := by
  simp only [push, begin, UInt8.lt_iff_toNat_lt, UInt8.reduceToNat, if_pos hb]

theorem push_lead {p : Pending} (hp : lead? b = some p) : push ⟨parts, none⟩ b = ⟨parts, some p⟩ := by
  have hb : ¬ b.toNat < 0x80 := by
    have := lead?_cases hp
    omega
  simp only [push, begin, UInt8.lt_iff_toNat_lt, UInt8.reduceToNat, if_neg hb, hp]

theorem push_last {bits : Nat} {low high : UInt8} (hlow : low.toNat ≤ b.toNat) (hhigh : b.toNat ≤ high.toNat) :
    push ⟨parts, some ⟨bits, low, high, 0⟩⟩ b =
      ⟨.char (Char.ofNat (bits * 64 + b.toNat % 64)) :: parts, none⟩ := by
  simp only [push, UInt8.le_iff_toNat_le]
  rw [if_pos ⟨hlow, hhigh⟩]

theorem push_inner {bits due : Nat} {low high : UInt8} (hlow : low.toNat ≤ b.toNat)
    (hhigh : b.toNat ≤ high.toNat) :
    push ⟨parts, some ⟨bits, low, high, due + 1⟩⟩ b =
      ⟨parts, some ⟨bits * 64 + b.toNat % 64, 0x80, 0xBF, due⟩⟩ := by
  simp only [push, UInt8.le_iff_toNat_le]
  rw [if_pos ⟨hlow, hhigh⟩]

end Reader

/-! ### From the text to the bytes and back -/

/-- The byte for six bits that stand behind the first byte. -/
theorem toNat_tail (n : Nat) : (UInt8.ofNat (n % 64 + 0x80)).toNat = n % 64 + 0x80 := by
  rw [UInt8.toNat_ofNat']
  omega

theorem tail_mod (n : Nat) : (UInt8.ofNat (n % 64 + 0x80)).toNat % 64 = n % 64 := by
  rw [toNat_tail]
  omega

theorem low_le_tail (n : Nat) : (0x80 : UInt8).toNat ≤ (UInt8.ofNat (n % 64 + 0x80)).toNat := by
  simp only [toNat_tail, UInt8.reduceToNat]
  omega

theorem tail_le_high (n : Nat) : (UInt8.ofNat (n % 64 + 0x80)).toNat ≤ (0xBF : UInt8).toNat := by
  simp only [toNat_tail, UInt8.reduceToNat]
  omega

/-- The encoding of a character takes the reader from one character to the next. -/
theorem foldl_push_utf8EncodeChar (parts : List Part) (c : Char) :
    (String.utf8EncodeChar c).foldl Reader.push ⟨parts, none⟩ = ⟨.char c :: parts, none⟩ := by
  have hc : Char.ofNat c.val.toNat = c := Char.ofNat_toNat c
  have hvalid : c.val.toNat < 0xD800 ∨ 0xDFFF < c.val.toNat ∧ c.val.toNat < 0x110000 := c.valid
  rw [String.utf8EncodeChar]
  generalize c.val.toNat = v at hc hvalid
  split
  · have hb : (UInt8.ofNat v).toNat = v := by
      rw [UInt8.toNat_ofNat']
      omega
    rw [List.foldl_cons, Reader.push_ascii (by omega), List.foldl_nil, hb, hc]
  split
  · have hlead : (UInt8.ofNat (v / 64 % 32 + 0xC0)).toNat = v / 64 + 0xC0 := by
      rw [UInt8.toNat_ofNat']
      omega
    have hbits : (v / 64 + 0xC0) % 32 * 64 + v % 64 = v := by omega
    rw [List.foldl_cons, Reader.push_lead (lead?_of_two (by omega) (by omega)), List.foldl_cons,
      Reader.push_last (low_le_tail v) (tail_le_high v), List.foldl_nil, hlead, tail_mod, hbits, hc]
  split
  · have hlead : (UInt8.ofNat (v / 4096 % 16 + 0xE0)).toNat = v / 4096 + 0xE0 := by
      rw [UInt8.toNat_ofNat']
      omega
    have hbits : ((v / 4096 + 0xE0) % 16 * 64 + v / 64 % 64) * 64 + v % 64 = v := by omega
    rw [List.foldl_cons, Reader.push_lead (lead?_of_three (by omega) (by omega)), List.foldl_cons,
      Reader.push_inner
        (by simp only [toNat_ite_eq, hlead, toNat_tail, UInt8.reduceToNat]; split <;> omega)
        (by simp only [toNat_ite_eq, hlead, toNat_tail, UInt8.reduceToNat]; split <;> omega),
      List.foldl_cons, Reader.push_last (low_le_tail v) (tail_le_high v), List.foldl_nil, hlead, tail_mod,
      tail_mod, hbits, hc]
  · have hlead : (UInt8.ofNat (v / 262144 % 8 + 0xF0)).toNat = v / 262144 + 0xF0 := by
      rw [UInt8.toNat_ofNat']
      omega
    have hbits : (((v / 262144 + 0xF0) % 8 * 64 + v / 4096 % 64) * 64 + v / 64 % 64) * 64 + v % 64 = v := by
      omega
    rw [List.foldl_cons, Reader.push_lead (lead?_of_four (by omega) (by omega)), List.foldl_cons,
      Reader.push_inner
        (by simp only [toNat_ite_eq, hlead, toNat_tail, UInt8.reduceToNat]; split <;> omega)
        (by simp only [toNat_ite_eq, hlead, toNat_tail, UInt8.reduceToNat]; split <;> omega),
      List.foldl_cons, Reader.push_inner (low_le_tail _) (tail_le_high _),
      List.foldl_cons, Reader.push_last (low_le_tail v) (tail_le_high v), List.foldl_nil, hlead, tail_mod,
      tail_mod, tail_mod, hbits, hc]

theorem foldl_push_encode (parts : List Part) (t : Text) :
    (encode t).foldl Reader.push ⟨parts, none⟩ = ⟨(t.map Part.char).reverse ++ parts, none⟩ := by
  induction t generalizing parts with
  | nil => rfl
  | cons c t ih => simp [foldl_push_utf8EncodeChar, ih]

theorem mapM_char?_eq_some_iff {parts : List Part} {t : Text} :
    parts.mapM Part.char? = some t ↔ parts = t.map Part.char := by
  induction parts generalizing t with
  | nil => cases t <;> simp
  | cons part parts ih =>
    cases part with
    | char c =>
      simp only [List.mapM_cons, Part.char?, Option.bind_eq_bind, Option.bind_some,
        Option.bind_eq_some_iff, ih, Option.pure_def, Option.some.injEq]
      constructor
      · rintro ⟨t, rfl, rfl⟩
        rfl
      · intro h
        obtain ⟨d, t, rfl, hd, rfl⟩ := List.map_eq_cons_iff.mp h.symm
        obtain rfl := Part.char.inj hd
        exact ⟨t, rfl, rfl⟩
    | illFormed => cases t <;> simp [List.mapM_cons, Part.char?]

theorem decode?_encode (t : Text) : decode? (encode t) = some t := by
  rw [decode?, mapM_char?_eq_some_iff]
  simp [Utf8.parts, Reader.start, foldl_push_encode, Reader.finish]

theorem encode_eq_nil_iff {t : Text} : encode t = [] ↔ t = [] := by
  constructor
  · intro hempty
    have hdecode := decode?_encode t
    rw [hempty] at hdecode
    exact (Option.some.inj hdecode).symm
  · rintro rfl
    rfl

/-! ### From the bytes to the text -/

theorem val_toNat_ofNat {n : Nat} (hn : n < 0xD800 ∨ 0xDFFF < n ∧ n < 0x110000) :
    (Char.ofNat n).val.toNat = n := by
  have hvalid : n.isValidChar := hn
  rw [Char.ofNat, dif_pos hvalid]
  rfl

theorem ofNat_eq_of_toNat_eq {n : Nat} (hn : n = b.toNat) : UInt8.ofNat n = b := by
  rw [hn]
  exact UInt8.ofNat_toNat

/-- What a character promises of which some bytes are read: any bytes in its bounds make, behind those,
the encoding of the character that they complete. -/
def Promise (front : Bytes) (bits : Nat) (low high : UInt8) : (due : Nat) → Prop
  | 0 =>
    ∀ b : UInt8, low.toNat ≤ b.toNat → b.toNat ≤ high.toNat →
      String.utf8EncodeChar (Char.ofNat (bits * 64 + b.toNat % 64)) = front ++ [b]
  | due + 1 =>
    ∀ b : UInt8, low.toNat ≤ b.toNat → b.toNat ≤ high.toNat →
      Promise (front ++ [b]) (bits * 64 + b.toNat % 64) 0x80 0xBF due

theorem promise_of_lead? {p : Pending} (hp : lead? b = some p) : Promise [b] p.bits p.low p.high p.due := by
  rcases lead?_cases hp with ⟨hmin, hmax⟩ | ⟨hmin, hmax⟩ | ⟨hmin, hmax⟩
  · rw [lead?_of_two hmin hmax] at hp
    obtain rfl := Option.some.inj hp
    intro b1 hlow1 hhigh1
    simp only [UInt8.reduceToNat] at hlow1 hhigh1 ⊢
    rw [String.utf8EncodeChar, val_toNat_ofNat (by omega), if_neg (by omega), if_pos (by omega),
      ofNat_eq_of_toNat_eq (b := b) (by omega), ofNat_eq_of_toNat_eq (b := b1) (by omega)]
    rfl
  · rw [lead?_of_three hmin hmax] at hp
    obtain rfl := Option.some.inj hp
    intro b1 hlow1 hhigh1 b2 hlow2 hhigh2
    simp only [toNat_ite_eq, UInt8.reduceToNat] at hlow1 hhigh1 hlow2 hhigh2 ⊢
    have hbounds : 0x80 ≤ b1.toNat ∧ b1.toNat ≤ 0xBF ∧ (b.toNat = 0xE0 → 0xA0 ≤ b1.toNat) ∧
        (b.toNat = 0xED → b1.toNat ≤ 0x9F) := by
      split at hlow1 <;> split at hhigh1 <;> omega
    rw [String.utf8EncodeChar, val_toNat_ofNat (by omega), if_neg (by omega), if_neg (by omega),
      if_pos (by omega), ofNat_eq_of_toNat_eq (b := b) (by omega),
      ofNat_eq_of_toNat_eq (b := b1) (by omega), ofNat_eq_of_toNat_eq (b := b2) (by omega)]
    rfl
  · rw [lead?_of_four hmin hmax] at hp
    obtain rfl := Option.some.inj hp
    intro b1 hlow1 hhigh1 b2 hlow2 hhigh2 b3 hlow3 hhigh3
    simp only [toNat_ite_eq, UInt8.reduceToNat] at hlow1 hhigh1 hlow2 hhigh2 hlow3 hhigh3 ⊢
    have hbounds : 0x80 ≤ b1.toNat ∧ b1.toNat ≤ 0xBF ∧ (b.toNat = 0xF0 → 0x90 ≤ b1.toNat) ∧
        (b.toNat = 0xF4 → b1.toNat ≤ 0x8F) := by
      split at hlow1 <;> split at hhigh1 <;> omega
    rw [String.utf8EncodeChar, val_toNat_ofNat (by omega), if_neg (by omega), if_neg (by omega),
      if_neg (by omega), ofNat_eq_of_toNat_eq (b := b) (by omega),
      ofNat_eq_of_toNat_eq (b := b1) (by omega), ofNat_eq_of_toNat_eq (b := b2) (by omega),
      ofNat_eq_of_toNat_eq (b := b3) (by omega)]
    rfl

/-- Where the reader stands behind bytes that it took without complaint: its parts are characters whose
encodings, with the bytes of the character that it is in, are the bytes so far. -/
def Stands (bytes : Bytes) (r : Reader) : Prop :=
  ∃ t front, r.parts = (t.map Part.char).reverse ∧ bytes = encode t ++ front ∧
    match r.pending with
    | none => front = []
    | some p => Promise front p.bits p.low p.high p.due

theorem mem_parts_begin {part : Part} (hpart : part ∈ parts) (b : UInt8) :
    part ∈ (Reader.begin parts b).parts := by
  rw [Reader.begin]
  split
  · exact List.mem_cons_of_mem _ hpart
  · cases lead? b with
    | none => exact List.mem_cons_of_mem _ hpart
    | some p => exact hpart

theorem mem_parts_push {part : Part} {r : Reader} (hpart : part ∈ r.parts) (b : UInt8) :
    part ∈ (r.push b).parts := by
  obtain ⟨parts, _ | ⟨bits, low, high, due⟩⟩ := r
  · exact mem_parts_begin hpart b
  · simp only [Reader.push]
    split
    · cases due with
      | zero => exact List.mem_cons_of_mem _ hpart
      | succ due => exact hpart
    · exact mem_parts_begin (List.mem_cons_of_mem _ hpart) b

theorem mem_parts_foldl_push {part : Part} {r : Reader} (hpart : part ∈ r.parts) (bytes : Bytes) :
    part ∈ (bytes.foldl Reader.push r).parts := by
  induction bytes generalizing r with
  | nil => exact hpart
  | cons b bytes ih => exact ih (mem_parts_push hpart b)

theorem Stands.begin {t : Text}
    (hclean : Part.illFormed ∉ (Reader.begin (t.map Part.char).reverse b).parts) :
    Stands (encode t ++ [b]) (Reader.begin (t.map Part.char).reverse b) := by
  by_cases hb : b.toNat < 0x80
  · have hchar : encode [Char.ofNat b.toNat] = [b] := by
      rw [encode_cons, encode_nil, List.append_nil, String.utf8EncodeChar, val_toNat_ofNat (by omega),
        if_pos (by omega), UInt8.ofNat_toNat]
    have hbegin : Reader.begin (t.map Part.char).reverse b =
        ⟨.char (Char.ofNat b.toNat) :: (t.map Part.char).reverse, none⟩ := Reader.push_ascii hb
    rw [hbegin]
    exact ⟨t ++ [Char.ofNat b.toNat], [], by simp, by rw [encode_append, hchar, List.append_nil], rfl⟩
  · simp only [Reader.begin, UInt8.lt_iff_toNat_lt, UInt8.reduceToNat, if_neg hb] at hclean ⊢
    cases hlead : lead? b with
    | none => simp [hlead] at hclean
    | some p => exact ⟨t, [b], rfl, rfl, promise_of_lead? hlead⟩

/-- A byte that the reader takes without complaint leaves it where it should stand. -/
theorem Stands.push {bytes : Bytes} {r : Reader} (h : Stands bytes r)
    (hclean : Part.illFormed ∉ (r.push b).parts) : Stands (bytes ++ [b]) (r.push b) := by
  obtain ⟨t, front, hparts, rfl, hpending⟩ := h
  obtain ⟨parts, _ | ⟨bits, low, high, due⟩⟩ := r
  · obtain rfl : front = [] := hpending
    obtain rfl : parts = _ := hparts
    rw [List.append_nil]
    exact Stands.begin hclean
  · obtain rfl : parts = _ := hparts
    by_cases hb : low.toNat ≤ b.toNat ∧ b.toNat ≤ high.toNat
    · cases due with
      | zero =>
        have hchar : String.utf8EncodeChar (Char.ofNat (bits * 64 + b.toNat % 64)) = front ++ [b] :=
          hpending b hb.1 hb.2
        rw [Reader.push_last hb.1 hb.2]
        exact ⟨t ++ [Char.ofNat (bits * 64 + b.toNat % 64)], [], by simp, by simp [hchar], rfl⟩
      | succ due =>
        rw [Reader.push_inner hb.1 hb.2]
        exact ⟨t, front ++ [b], rfl, by simp, hpending b hb.1 hb.2⟩
    · simp only [Reader.push, UInt8.le_iff_toNat_le, if_neg hb] at hclean
      exact absurd (mem_parts_begin (List.mem_cons_self) b) hclean

theorem Stands.foldl_push {done : Bytes} {r : Reader} (h : Stands done r) (bytes : Bytes)
    (hclean : Part.illFormed ∉ (bytes.foldl Reader.push r).parts) :
    Stands (done ++ bytes) (bytes.foldl Reader.push r) := by
  induction bytes generalizing done r with
  | nil => simpa using h
  | cons b bytes ih =>
    have hb : Part.illFormed ∉ (r.push b).parts := fun hmem => hclean (mem_parts_foldl_push hmem bytes)
    simpa using ih (h.push hb) hclean

theorem encode_of_decode? {bytes : Bytes} {t : Text} (ht : decode? bytes = some t) : encode t = bytes := by
  rw [decode?, mapM_char?_eq_some_iff, Utf8.parts] at ht
  have hstart : Stands [] Reader.start := ⟨[], [], rfl, rfl, rfl⟩
  have hread := hstart.foldl_push bytes
  generalize bytes.foldl Reader.push Reader.start = r at ht hread
  obtain ⟨parts, _ | p⟩ := r
  · have hparts : parts = (t.map Part.char).reverse := by
      rw [← ht, Reader.finish, List.reverse_reverse]
    obtain ⟨t', front, ht', hbytes, hfront⟩ := hread (by simp [hparts])
    obtain rfl : t' = t := by
      have := hparts.symm.trans ht'
      simpa [List.map_inj_right, Part.char.injEq] using this.symm
    obtain rfl : front = [] := hfront
    simpa using hbytes.symm
  · have hmem : Part.illFormed ∈ t.map Part.char := by
      rw [← ht]
      simp [Reader.finish]
    simp at hmem

/-- A sequence of bytes is well-formed exactly when it is the encoding of a text, the one that it is read as. -/
theorem decode?_eq_some_iff {bytes : Bytes} {t : Text} : decode? bytes = some t ↔ encode t = bytes :=
  ⟨encode_of_decode?, fun h => h ▸ decode?_encode t⟩

theorem decode?_eq_none_iff {bytes : Bytes} : decode? bytes = none ↔ ∀ t, encode t ≠ bytes := by
  rw [Option.eq_none_iff_forall_ne_some]
  simp only [ne_eq, decode?_eq_some_iff]

/-!
## ASCII characters and their bytes

An ASCII character is encoded by the byte of its own number, and a character beyond ASCII by bytes beyond ASCII
only. So an ASCII byte stands in the encoding of a text exactly if its character stands in the text
(`mem_encode_iff`).
-/

variable {c d : Char}

theorem utf8EncodeChar_ascii (hc : c.toNat < 0x80) : String.utf8EncodeChar c = [UInt8.ofNat c.toNat] := by
  have hval : c.val.toNat ≤ 0x7F := Nat.le_of_lt_succ hc
  rw [String.utf8EncodeChar, if_pos hval]
  rfl

theorem le_toNat_of_mem_utf8EncodeChar (hc : 0x80 ≤ c.toNat) (hb : b ∈ String.utf8EncodeChar c) :
    0x80 ≤ b.toNat := by
  have hval : ¬ c.val.toNat ≤ 0x7F := Nat.not_le.mpr hc
  rw [String.utf8EncodeChar, if_neg hval] at hb
  -- By the length of the encoding: two, three or four bytes.
  split at hb
  · simp only [List.mem_cons, List.not_mem_nil, or_false] at hb
    rcases hb with rfl | rfl <;> rw [UInt8.toNat_ofNat'] <;> omega
  split at hb
  · simp only [List.mem_cons, List.not_mem_nil, or_false] at hb
    rcases hb with rfl | rfl | rfl <;> rw [UInt8.toNat_ofNat'] <;> omega
  · simp only [List.mem_cons, List.not_mem_nil, or_false] at hb
    rcases hb with rfl | rfl | rfl | rfl <;> rw [UInt8.toNat_ofNat'] <;> omega

/-- A character that some bytes encode is not ASCII if the last of them is not. -/
theorem le_toNat_of_utf8EncodeChar {front : Bytes} (hc : String.utf8EncodeChar c = front ++ [b])
    (hb : 0x80 ≤ b.toNat) : 0x80 ≤ c.toNat := by
  by_contra hlt
  rw [utf8EncodeChar_ascii (by omega)] at hc
  have hlast : UInt8.ofNat c.toNat = b := by
    simpa using congrArg List.getLast? hc
  rw [← hlast, UInt8.toNat_ofNat'] at hb
  omega

theorem toNat_ofNat_byte (hb : b.toNat < 0x80) : (Char.ofNat b.toNat).toNat = b.toNat :=
  val_toNat_ofNat (Or.inl (by omega))

theorem toNat_ofNat_ascii (hc : c.toNat < 0x80) : (UInt8.ofNat c.toNat).toNat = c.toNat := by
  rw [UInt8.toNat_ofNat']
  omega

theorem ofNat_toNat_eq_iff (hc : c.toNat < 0x80) (hb : b.toNat < 0x80) :
    UInt8.ofNat c.toNat = b ↔ c = Char.ofNat b.toNat := by
  constructor
  · intro h
    have hnat : b.toNat = c.toNat := by
      rw [← h, toNat_ofNat_ascii hc]
    rw [hnat, Char.ofNat_toNat]
  · intro h
    rw [h, toNat_ofNat_byte hb, UInt8.ofNat_toNat]

theorem mem_utf8EncodeChar_iff (hc : c.toNat < 0x80) : UInt8.ofNat c.toNat ∈ String.utf8EncodeChar d ↔ c = d := by
  by_cases hd : d.toNat < 0x80
  · rw [utf8EncodeChar_ascii hd, List.mem_singleton, ← UInt8.toNat_inj, toNat_ofNat_ascii hc, toNat_ofNat_ascii hd,
      Char.toNat_inj]
  · constructor
    · intro hmem
      have hbyte := le_toNat_of_mem_utf8EncodeChar (Nat.not_lt.mp hd) hmem
      rw [toNat_ofNat_ascii hc] at hbyte
      omega
    · intro heq
      exact absurd (heq ▸ hc) hd

theorem mem_encode_iff (hc : c.toNat < 0x80) {t : Text} : UInt8.ofNat c.toNat ∈ encode t ↔ c ∈ t := by
  simp only [encode, List.mem_flatMap, mem_utf8EncodeChar_iff hc, exists_eq_right']

/-- A text whose encoding begins with an ASCII byte begins with the character of that byte. -/
theorem exists_of_encode_eq_cons (hc : c.toNat < 0x80) {t : Text} {bytes : Bytes}
    (h : encode t = UInt8.ofNat c.toNat :: bytes) : ∃ rest, t = c :: rest ∧ bytes = encode rest := by
  rcases t with _ | ⟨d, rest⟩
  · cases h
  obtain ⟨b, bytes', hd⟩ := List.exists_cons_of_ne_nil (String.utf8EncodeChar_ne_nil (c := d))
  rw [encode_cons, hd, List.cons_append] at h
  have hmem : UInt8.ofNat c.toNat ∈ String.utf8EncodeChar d := by
    rw [hd, (List.cons.inj h).1]
    exact List.mem_cons_self
  obtain rfl := (mem_utf8EncodeChar_iff hc).mp hmem
  rw [utf8EncodeChar_ascii hc] at hd
  obtain ⟨-, rfl⟩ := List.cons.inj hd
  exact ⟨rest, rfl, (List.cons.inj h).2.symm⟩

/-- What follows an ASCII text in the encoding of a text is the encoding of a text too. -/
theorem exists_of_encode_eq_append {s : Text} (hs : ∀ c ∈ s, c.toNat < 0x80) {t : Text} {bytes : Bytes}
    (h : encode t = encode s ++ bytes) : ∃ rest, t = s ++ rest ∧ bytes = encode rest := by
  induction s generalizing t with
  | nil => exact ⟨t, rfl, h.symm⟩
  | cons c s ih =>
    have hc := hs c List.mem_cons_self
    rw [encode_cons, utf8EncodeChar_ascii hc, List.singleton_append, List.cons_append] at h
    obtain ⟨t', rfl, ht'⟩ := exists_of_encode_eq_cons hc h
    obtain ⟨rest, rfl, hrest⟩ := ih (fun d hd => hs d (List.mem_cons_of_mem c hd)) ht'.symm
    exact ⟨rest, rfl, hrest⟩

theorem takeWhile_encode (hc : c.toNat < 0x80) (t : Text) :
    (encode t).takeWhile (· ≠ UInt8.ofNat c.toNat) = encode (t.takeWhile (· ≠ c)) := by
  induction t with
  | nil => rfl
  | cons d t ih =>
    by_cases hd : d = c
    · subst hd
      rw [encode_cons, utf8EncodeChar_ascii hc, List.singleton_append, List.takeWhile_cons_of_neg (by simp),
        List.takeWhile_cons_of_neg (by simp), encode_nil]
    · have hall : ∀ b ∈ String.utf8EncodeChar d, decide (b ≠ UInt8.ofNat c.toNat) = true := by
        intro b hb
        rw [decide_eq_true_iff]
        rintro rfl
        exact hd ((mem_utf8EncodeChar_iff hc).mp hb).symm
      rw [encode_cons, List.takeWhile_append_of_pos hall, ih, List.takeWhile_cons_of_pos (by simpa using hd),
        encode_cons]

end AnyCase.Utf8
