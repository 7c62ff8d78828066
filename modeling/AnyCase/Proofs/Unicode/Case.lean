import AnyCase.Proofs.Text.Utf8
import AnyCase.Proofs.Unicode.Table

/-!
# Laws of the case mappings

Each law is one of code points first, proved of the entries of the tables, and then one of characters and texts.

Upper case is settled after one step (`upper_of_mem_upper`). Lower case keeps what upper case keeps, but for six
capitals that are the upper-case form of nothing but themselves (`upperText_lowerText_eq_iff`), and it leads
back from an upper-case form, but for the stray characters (`not_stray_iff`). A caseless character comes from
itself only (`Caseless.mem_upper_iff`).
-/

namespace AnyCase.Unicode

/-! ### Characters and their code points -/

/-- A table that leads from characters to characters. -/
def CaseTable.Valid (t : CaseTable) : Prop :=
  ∀ code, code.isValidChar → ∀ m ∈ t.map code, m.isValidChar

theorem CaseTable.valid_of_entries {t : CaseTable}
    (hexpansion : ∀ b ∈ t, ∀ e ∈ b.expansions, ∀ m ∈ e.2, m.isValidChar)
    (hrun : ∀ b ∈ t, ∀ r ∈ b.runs, r.target + (r.last - r.first) < 0xD800 ∨
      0xDFFF < r.target ∧ r.target + (r.last - r.first) < 0x110000) : t.Valid := by
  refine forall_map (P := fun code codes => code.isValidChar → ∀ m ∈ codes, m.isValidChar) ?_ ?_ ?_
  · intro b hb e he _
    exact hexpansion b hb e he
  · intro b hb r hr k hk _ m hm
    have hk := Run.le_of_mem_offsets hk
    have htargets := hrun b hb r hr
    rw [List.mem_singleton.mp hm, Nat.isValidChar]
    omega
  · intro code _ hcode m hm
    rwa [List.mem_singleton.mp hm]

theorem upperTable_valid : upperTable.Valid :=
  CaseTable.valid_of_entries (by decide +kernel) (by decide +kernel)

theorem lowerTable_valid : lowerTable.Valid :=
  CaseTable.valid_of_entries (by decide +kernel) (by decide +kernel)

theorem CaseTable.Valid.map_toNat_mapChar {t : CaseTable} (ht : t.Valid) (c : Char) :
    (t.mapChar c).map Char.toNat = t.map c.toNat := by
  have hvalid : ∀ m ∈ t.map c.toNat, (Char.toNat ∘ Char.ofNat) m = id m := fun m hm =>
    Utf8.val_toNat_ofNat (ht c.toNat c.valid m hm)
  rw [CaseTable.mapChar, List.map_map, List.map_congr_left hvalid, List.map_id]

theorem CaseTable.Valid.toNat_mem_map_iff {t : CaseTable} (ht : t.Valid) {c d : Char} :
    d.toNat ∈ t.map c.toNat ↔ d ∈ t.mapChar c := by
  rw [← ht.map_toNat_mapChar]
  constructor
  · intro hmem
    obtain ⟨e, he, heq⟩ := List.mem_map.mp hmem
    exact Char.toNat_inj.mp heq ▸ he
  · exact List.mem_map_of_mem

theorem map_toNat_upper (c : Char) : (upper c).map Char.toNat = upperTable.map c.toNat :=
  upperTable_valid.map_toNat_mapChar c

theorem map_toNat_lower (c : Char) : (lower c).map Char.toNat = lowerTable.map c.toNat :=
  lowerTable_valid.map_toNat_mapChar c

theorem map_toNat_upperText (t : Text) :
    (upperText t).map Char.toNat = (t.map Char.toNat).flatMap upperTable.map := by
  simp only [upperText, List.map_flatMap, List.flatMap_map, map_toNat_upper]

theorem eq_of_map_toNat_eq {s t : Text} (h : s.map Char.toNat = t.map Char.toNat) : s = t :=
  (List.map_inj_right fun _ _ => Char.toNat_inj.mp).mp h

theorem upper_eq_self {c : Char} (hc : upperTable.map c.toNat = [c.toNat]) : upper c = [c] :=
  eq_of_map_toNat_eq ((map_toNat_upper c).trans hc)

theorem upper_ne_nil (c : Char) : upper c ≠ [] := by
  intro hnil
  have hcodes : upperTable.map c.toNat ≠ [] := by
    refine CaseTable.forall_map (P := fun _ codes => codes ≠ []) ?_ ?_ ?_ c.toNat
    · decide +kernel
    · exact fun _ _ r _ k _ => List.cons_ne_nil _ _
    · exact fun code _ => List.cons_ne_nil _ _
  rw [← map_toNat_upper, hnil] at hcodes
  exact hcodes rfl

theorem length_le_length_upperText (t : Text) : t.length ≤ (upperText t).length := by
  induction t with
  | nil => exact Nat.le_refl _
  | cons c t ih =>
    have hpos : 0 < (upper c).length := List.length_pos_iff.mpr (upper_ne_nil c)
    rw [upperText_cons, List.length_append, List.length_cons]
    omega

theorem forall_ascii {P : Char → Prop} (hall : ∀ n < 0x80, P (Char.ofNat n)) {c : Char}
    (hc : c.toNat < 0x80) : P c := by
  have hcode := hall c.toNat hc
  rwa [Char.ofNat_toNat] at hcode

theorem upper_ascii {c : Char} (hc : c.toNat < 0x80) : upper c = [c.toUpper] :=
  forall_ascii (P := fun c => upper c = [c.toUpper]) (by decide +kernel) hc

theorem lower_ascii {c : Char} (hc : c.toNat < 0x80) : lower c = [c.toLower] :=
  forall_ascii (P := fun c => lower c = [c.toLower]) (by decide +kernel) hc

/-! ### Upper case again -/

theorem upperTable_fixes_expansions :
    ∀ b ∈ upperTable, ∀ e ∈ b.expansions, ∀ m ∈ e.2, upperTable.map m = [m] := by
  decide +kernel

theorem upperTable_fixes_targets :
    ∀ b ∈ upperTable, ∀ r ∈ b.runs, ∀ k ∈ r.offsets,
      (upperTable.atTargets r).map (r.target + k) = [r.target + k] := by
  decide +kernel

theorem upperTable_map_of_mem {code m : Nat} (hm : m ∈ upperTable.map code) : upperTable.map m = [m] := by
  refine CaseTable.forall_map (P := fun _ codes => ∀ m ∈ codes, upperTable.map m = [m])
    upperTable_fixes_expansions ?_ ?_ code m hm
  · intro b hb r hr k hk m hm
    rw [List.mem_singleton.mp hm, ← CaseTable.map_atTargets hk]
    exact upperTable_fixes_targets b hb r hr k hk
  · intro code hself m hm
    rwa [List.mem_singleton.mp hm]

/-- What stands in an upper-case form is in upper case. -/
theorem upper_of_mem_upper {c d : Char} (hd : d ∈ upper c) : upper d = [d] :=
  upper_eq_self (upperTable_map_of_mem (upperTable_valid.toNat_mem_map_iff.mpr hd))

theorem upperText_of_forall {t : Text} (ht : ∀ c ∈ t, upper c = [c]) : upperText t = t := by
  induction t with
  | nil => rfl
  | cons c t ih =>
    rw [upperText_cons, ht c List.mem_cons_self, ih fun d hd => ht d (List.mem_cons_of_mem c hd)]
    rfl

theorem upperText_upperText (t : Text) : upperText (upperText t) = upperText t := by
  apply upperText_of_forall
  intro d hd
  obtain ⟨c, -, hdc⟩ := List.mem_flatMap.mp hd
  exact upper_of_mem_upper hdc

/-! ### Code points that only come from themselves -/

/-- No entry of the table leads to the code point. -/
def CaseTable.Misses (t : CaseTable) (m : Nat) : Prop :=
  ∀ b ∈ t, (∀ e ∈ b.expansions, m ∉ e.2) ∧
    ∀ r ∈ b.runs, m < r.target ∨ r.target + (r.last - r.first) < m

instance (t : CaseTable) (m : Nat) : Decidable (t.Misses m) :=
  inferInstanceAs (Decidable (∀ b ∈ t, _ ∧ _))

theorem CaseTable.Misses.eq_of_mem_map {t : CaseTable} {code m : Nat} (hmisses : t.Misses m)
    (hm : m ∈ t.map code) : code = m := by
  refine forall_map (P := fun code codes => m ∈ codes → code = m) ?_ ?_ ?_ code hm
  · intro b hb e he hmem
    exact absurd hmem ((hmisses b hb).1 e he)
  · intro b hb r hr k hk hmem
    have hk := Run.le_of_mem_offsets hk
    have hfar := (hmisses b hb).2 r hr
    have := List.mem_singleton.mp hmem
    omega
  · intro code _ hmem
    exact (List.mem_singleton.mp hmem).symm

theorem eq_of_mem_upper {c d : Char} (hmisses : upperTable.Misses d.toNat) (hd : d ∈ upper c) : c = d :=
  Char.toNat_inj.mp (hmisses.eq_of_mem_map (upperTable_valid.toNat_mem_map_iff.mpr hd))

theorem eq_of_mem_lower {c d : Char} (hmisses : lowerTable.Misses d.toNat) (hd : d ∈ lower c) : c = d :=
  Char.toNat_inj.mp (hmisses.eq_of_mem_map (lowerTable_valid.toNat_mem_map_iff.mpr hd))

/-- A character that stands for itself in both cases, and that no other is mapped to. -/
structure Caseless (c : Char) : Prop where
  upper_eq : upper c = [c]
  lower_eq : lower c = [c]
  upper_misses : upperTable.Misses c.toNat
  lower_misses : lowerTable.Misses c.toNat

instance : DecidablePred Caseless := fun c =>
  decidable_of_iff (upper c = [c] ∧ lower c = [c] ∧ upperTable.Misses c.toNat ∧ lowerTable.Misses c.toNat)
    ⟨fun ⟨hupper, hlower, hupperMisses, hlowerMisses⟩ => ⟨hupper, hlower, hupperMisses, hlowerMisses⟩,
      fun hc => ⟨hc.upper_eq, hc.lower_eq, hc.upper_misses, hc.lower_misses⟩⟩

theorem Caseless.mem_upper_iff {c d : Char} (hd : Caseless d) : d ∈ upper c ↔ c = d := by
  constructor
  · exact eq_of_mem_upper hd.upper_misses
  · rintro rfl
    simp [hd.upper_eq]

theorem Caseless.mem_lower_iff {c d : Char} (hd : Caseless d) : d ∈ lower c ↔ c = d := by
  constructor
  · exact eq_of_mem_lower hd.lower_misses
  · rintro rfl
    simp [hd.lower_eq]

theorem Caseless.mem_upperText_iff {d : Char} (hd : Caseless d) {t : Text} : d ∈ upperText t ↔ d ∈ t := by
  simp only [upperText, List.mem_flatMap, hd.mem_upper_iff, exists_eq_right]

/-! ### Upper case behind lower case -/

/-- The capitals that are the upper-case form of themselves only: lower case takes each to the small letter of
another capital. -/
def loneCodes : List Nat :=
  [0x0130, 0x03F4, 0x1E9E, 0x2126, 0x212A, 0x212B]

def LoneCapital (c : Char) : Prop :=
  c.toNat ∈ loneCodes

instance : DecidablePred LoneCapital :=
  fun c => inferInstanceAs (Decidable (c.toNat ∈ loneCodes))

theorem upperTable_map_loneCode : ∀ code ∈ loneCodes, upperTable.map code = [code] := by
  decide +kernel

theorem not_mem_lowerTable_loneCode : ∀ code ∈ loneCodes, code ∉ lowerTable.map code := by
  decide +kernel

theorem misses_loneCode : ∀ code ∈ loneCodes, upperTable.Misses code ∧ lowerTable.Misses code := by
  decide +kernel

theorem LoneCapital.upper_eq {c : Char} (hc : LoneCapital c) : upper c = [c] :=
  upper_eq_self (upperTable_map_loneCode c.toNat hc)

/-- Lower case takes a lone capital away, and upper case does not bring it back. -/
theorem LoneCapital.not_mem_upperText_lower {c : Char} (hc : LoneCapital c) (d : Char) :
    c ∉ upperText (lower d) := by
  intro hmem
  obtain ⟨hupper, hlower⟩ := misses_loneCode c.toNat hc
  obtain ⟨e, he, hce⟩ := List.mem_flatMap.mp hmem
  obtain rfl := eq_of_mem_upper hupper hce
  obtain rfl := eq_of_mem_lower hlower he
  exact not_mem_lowerTable_loneCode d.toNat hc (lowerTable_valid.toNat_mem_map_iff.mpr he)

theorem loneCode_of_expansion : ∀ b ∈ lowerTable, ∀ e ∈ b.expansions, e.1 ∈ loneCodes := by
  decide +kernel

-- Lower case leads a capital to a letter that upper case leads back, and a title-case letter to one that has the
-- same upper-case form.
theorem upperTable_undoes_lowerTable :
    ∀ b ∈ lowerTable, ∀ r ∈ b.runs, ∀ k ∈ r.offsets,
      (upperTable.atTargets r).map (r.target + k) = [r.first + k] ∨
        upperTable.map (r.target + k) = upperTable.map (r.first + k) ∨ r.first + k ∈ loneCodes := by
  decide +kernel

theorem upperTable_flatMap_lowerTable {code : Nat} (hcode : code ∉ loneCodes) :
    (lowerTable.map code).flatMap upperTable.map = upperTable.map code := by
  refine CaseTable.forall_map (t := lowerTable)
    (P := fun code codes => code ∉ loneCodes → codes.flatMap upperTable.map = upperTable.map code)
    ?_ ?_ ?_ code hcode
  · intro b hb e he hcode
    exact absurd (loneCode_of_expansion b hb e he) hcode
  · intro b hb r hr k hk hcode
    rw [List.flatMap_singleton]
    rcases upperTable_undoes_lowerTable b hb r hr k hk with hundone | hsame | hlone
    · rw [CaseTable.map_atTargets hk] at hundone
      have hmem : r.first + k ∈ upperTable.map (r.target + k) := by simp [hundone]
      rw [hundone, upperTable_map_of_mem hmem]
    · exact hsame
    · exact absurd hlone hcode
  · intro code _ _
    exact List.flatMap_singleton _ _

/-- Upper case makes the same of a character and of its lower-case form. -/
theorem upperText_lower {c : Char} (hc : ¬ LoneCapital c) : upperText (lower c) = upper c := by
  apply eq_of_map_toNat_eq
  rw [map_toNat_upperText, map_toNat_lower, map_toNat_upper, upperTable_flatMap_lowerTable hc]

theorem upperText_lowerText (t : Text) :
    upperText (lowerText t) = t.flatMap fun c => upperText (lower c) := by
  rw [upperText, lowerText, List.flatMap_assoc]
  rfl

theorem upperText_lowerText_eq_iff {t : Text} :
    upperText (lowerText t) = upperText t ↔ ∀ c ∈ t, ¬ LoneCapital c := by
  rw [upperText_lowerText]
  constructor
  -- A lone capital is lost for good: no other character of the text can bring it back.
  · intro heq c hct hc
    have hmem : c ∈ upperText t := List.mem_flatMap.mpr ⟨c, hct, by simp [hc.upper_eq]⟩
    rw [← heq] at hmem
    obtain ⟨d, -, hcd⟩ := List.mem_flatMap.mp hmem
    exact hc.not_mem_upperText_lower d hcd
  · intro ht
    induction t with
    | nil => rfl
    | cons c t ih =>
      rw [List.forall_mem_cons] at ht
      rw [List.flatMap_cons, upperText_cons, upperText_lower ht.1, ih ht.2]

/-! ### Lower case behind upper case -/

/-- The code points that lower case does not lead back to, once upper case has led away from them: those with an
upper-case form of several code points, and letters whose capital is that of another small letter. -/
def strayRanges : List (Nat × Nat) :=
  [(0x00B5, 0x00B5), (0x00DF, 0x00DF), (0x0131, 0x0131), (0x0149, 0x0149), (0x017F, 0x017F),
    (0x01C5, 0x01C5), (0x01C8, 0x01C8), (0x01CB, 0x01CB), (0x01F0, 0x01F0), (0x01F2, 0x01F2),
    (0x0345, 0x0345), (0x0390, 0x0390), (0x03B0, 0x03B0), (0x03C2, 0x03C2), (0x03D0, 0x03D1),
    (0x03D5, 0x03D6), (0x03F0, 0x03F1), (0x03F5, 0x03F5), (0x0587, 0x0587), (0x1C80, 0x1C88),
    (0x1E96, 0x1E9B), (0x1F50, 0x1F50), (0x1F52, 0x1F52), (0x1F54, 0x1F54), (0x1F56, 0x1F56),
    (0x1F80, 0x1FAF), (0x1FB2, 0x1FB4), (0x1FB6, 0x1FB7), (0x1FBC, 0x1FBC), (0x1FBE, 0x1FBE),
    (0x1FC2, 0x1FC4), (0x1FC6, 0x1FC7), (0x1FCC, 0x1FCC), (0x1FD2, 0x1FD3), (0x1FD6, 0x1FD7),
    (0x1FE2, 0x1FE4), (0x1FE6, 0x1FE7), (0x1FF2, 0x1FF4), (0x1FF6, 0x1FF7), (0x1FFC, 0x1FFC),
    (0xFB00, 0xFB06), (0xFB13, 0xFB17)]

def StrayCode (code : Nat) : Prop :=
  ∃ range ∈ strayRanges, range.1 ≤ code ∧ code ≤ range.2

instance (code : Nat) : Decidable (StrayCode code) :=
  inferInstanceAs (Decidable (∃ range ∈ strayRanges, _ ∧ _))

/-- A character that its upper-case form does not lead back to. -/
def Stray (c : Char) : Prop :=
  StrayCode c.toNat

instance : DecidablePred Stray :=
  fun c => inferInstanceAs (Decidable (StrayCode c.toNat))

/-- `codes` is one code point, and it is `code` itself or leads back to it. -/
def Returns (code : Nat) (codes : List Nat) : Prop :=
  codes.length = 1 ∧ ∀ m ∈ codes, code = m ∨ code ∈ lowerTable.map m

instance (code : Nat) (codes : List Nat) : Decidable (Returns code codes) :=
  inferInstanceAs (Decidable (_ ∧ _))

theorem strayCode_of_expansion : ∀ b ∈ upperTable, ∀ e ∈ b.expansions, StrayCode e.1 := by
  decide +kernel

theorem lowerTable_undoes_upperTable :
    ∀ b ∈ upperTable, ∀ r ∈ b.runs, ∀ k ∈ r.offsets,
      r.first + k ∈ (lowerTable.atTargets r).map (r.target + k) ∨ StrayCode (r.first + k) := by
  decide +kernel

theorem not_returns_of_stray :
    ∀ range ∈ strayRanges, ∀ code ∈ List.range' range.1 (range.2 - range.1 + 1),
      ¬ Returns code (upperTable.map code) := by
  decide +kernel

theorem not_strayCode_iff {code : Nat} : ¬ StrayCode code ↔ Returns code (upperTable.map code) := by
  constructor
  · refine CaseTable.forall_map (P := fun code codes => ¬ StrayCode code → Returns code codes) ?_ ?_ ?_ code
    · intro b hb e he hstray
      exact absurd (strayCode_of_expansion b hb e he) hstray
    · intro b hb r hr k hk hstray
      refine ⟨rfl, fun m hm => ?_⟩
      rw [List.mem_singleton.mp hm, ← CaseTable.map_atTargets hk]
      exact .inr ((lowerTable_undoes_upperTable b hb r hr k hk).resolve_right hstray)
    · intro code _ _
      exact ⟨rfl, fun m hm => .inl (List.mem_singleton.mp hm).symm⟩
  · rintro hreturns ⟨range, hrange, hfirst, hlast⟩
    refine not_returns_of_stray range hrange code (List.mem_range'.mpr ⟨code - range.1, ?_, ?_⟩) hreturns
    · omega
    · omega

theorem not_stray_iff {c : Char} : ¬ Stray c ↔ ∃ d, upper c = [d] ∧ (c = d ∨ c ∈ lower d) := by
  rw [Stray, not_strayCode_iff, Returns, ← map_toNat_upper, List.length_map]
  constructor
  · rintro ⟨hone, hback⟩
    obtain ⟨d, hd⟩ := List.length_eq_one_iff.mp hone
    refine ⟨d, hd, ?_⟩
    rw [lower, ← lowerTable_valid.toNat_mem_map_iff, ← Char.toNat_inj]
    exact hback d.toNat (by simp [hd])
  · rintro ⟨d, hd, hback⟩
    rw [lower, ← lowerTable_valid.toNat_mem_map_iff, ← Char.toNat_inj] at hback
    simpa [hd] using hback

end AnyCase.Unicode
