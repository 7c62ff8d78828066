import AnyCase.Proofs.Literal.Expansion
import Mathlib

/-!
# The spellings that an expansion accepts

The brackets of an ASCII keyword accept the spellings of the keyword that differ from it in ASCII case, and no
others (`accepts_iff_of_ascii`).

A keyword beyond ASCII can be refused in its own spelling, since its brackets are made from its upper-case form.
This happens exactly if a stray character stands in it (`accepts_own_spelling_iff`).
-/

namespace AnyCase.Literal

open Unicode

/-! ### ASCII keywords -/

/-- The brackets of an ASCII character. -/
def asciiBracket (c : Char) : Bracket where
  members := [c.toUpper, c.toLower]

theorem toNat_toUpper_lt {c : Char} (hc : c.toNat < 0x80) : c.toUpper.toNat < 0x80 :=
  forall_ascii (P := fun c => c.toUpper.toNat < 0x80) (by decide +kernel) hc

theorem brackets_of_ascii {keyword : Text} (hascii : ∀ c ∈ keyword, c.toNat < 0x80) :
    brackets keyword = keyword.map asciiBracket := by
  induction keyword with
  | nil => rfl
  | cons c keyword ih =>
    have hc : c.toNat < 0x80 := hascii c List.mem_cons_self
    have hlower : lower c.toUpper = [c.toLower] := by
      rw [lower_ascii (toNat_toUpper_lt hc), Char.toLower_toUpper_eq_toLower]
    rw [brackets, upperText_cons, upper_ascii hc, List.map_append, List.map_cons, List.map_nil,
      List.singleton_append, List.map_cons, ← ih fun d hd => hascii d (List.mem_cons_of_mem c hd), eitherCase,
      hlower]
    rfl

theorem mem_asciiBracket_iff {c d : Char} : d ∈ (asciiBracket c).members ↔ c.toLower = d.toLower := by
  simp only [asciiBracket, List.mem_cons, List.not_mem_nil, or_false]
  constructor
  · rintro (rfl | rfl)
    · exact (Char.toLower_toUpper_eq_toLower c).symm
    · exact (Char.toLower_toLower_eq_toLower c).symm
  · intro heq
    by_cases hd : d.isUpper
    · left
      rw [← Char.toUpper_toLower_eq_toUpper, heq, Char.toUpper_toLower_eq_toUpper,
        Char.toUpper_eq_of_not_isLower (Char.not_isLower_of_isUpper hd)]
    · right
      rw [heq, Char.toLower_eq_of_not_isUpper hd]

/-- The expansion of an ASCII keyword is read back as brackets that accept what equals the keyword up to ASCII
case, and nothing else. -/
theorem accepts_iff_of_ascii {keyword : Text} (hascii : ∀ c ∈ keyword, c.toNat < 0x80)
    (hclosing : ']' ∉ keyword) :
    ∃ bs, Bracket.readAll? (expand keyword) = some bs ∧
      ∀ spelling : Text, Bracket.Accepts bs spelling ↔
        spelling.map Char.toLower = keyword.map Char.toLower := by
  refine ⟨brackets keyword, readAll?_expand hclosing, fun spelling => ?_⟩
  calc Bracket.Accepts (brackets keyword) spelling
      ↔ List.Forall₂ (fun c d => d ∈ (asciiBracket c).members) keyword spelling := by
        rw [brackets_of_ascii hascii, Bracket.accepts_iff_forall₂, List.forall₂_map_left_iff]
    _ ↔ List.Forall₂ (fun c d => c.toLower = d.toLower) keyword spelling := by
        simp only [mem_asciiBracket_iff]
    _ ↔ List.Forall₂ Eq (keyword.map Char.toLower) (spelling.map Char.toLower) := by
        rw [List.forall₂_map_left_iff, List.forall₂_map_right_iff]
    _ ↔ spelling.map Char.toLower = keyword.map Char.toLower := by
        rw [List.forall₂_eq_eq_eq, eq_comm]

/-- A keyword with an opening bracket, a digit and a quote, whose `k` the Kelvin sign does not stand for. -/
theorem accepts_of_kelvin_keyword :
    ((∀ c ∈ ['[', 'k', '0', '\x27'], c.toNat < 0x80) ∧ ']' ∉ ['[', 'k', '0', '\x27']) ∧
      ∃ bs, Bracket.readAll? (expand ['[', 'k', '0', '\x27']) = some bs ∧
        Bracket.Accepts bs ['[', 'K', '0', '\x27'] ∧ ¬ Bracket.Accepts bs ['[', '\u212A', '0', '\x27'] := by
  have hascii : ∀ c ∈ ['[', 'k', '0', '\x27'], c.toNat < 0x80 := by simp
  have hclosing : ']' ∉ ['[', 'k', '0', '\x27'] := by decide
  obtain ⟨bs, hread, haccepts⟩ := accepts_iff_of_ascii hascii hclosing
  refine ⟨⟨hascii, hclosing⟩, bs, hread, ?_, ?_⟩
  · rw [haccepts]
    decide
  · rw [haccepts]
    decide

/-! ### The keyword as it is written -/

theorem length_brackets (keyword : Text) : (brackets keyword).length = (upperText keyword).length :=
  List.length_map _

theorem brackets_cons_of_single {c d : Char} (hc : upper c = [d]) (keyword : Text) :
    brackets (c :: keyword) = eitherCase d :: brackets keyword := by
  rw [brackets, upperText_cons, hc]
  rfl

/-- A character whose upper-case form has several characters makes the brackets too many. -/
theorem exists_upper_of_accepts {c : Char} {keyword : Text}
    (haccepts : Bracket.Accepts (brackets (c :: keyword)) (c :: keyword)) : ∃ d, upper c = [d] := by
  have hlength := Bracket.length_eq_of_accepts haccepts
  have htail := length_le_length_upperText keyword
  have hpos : 0 < (upper c).length := List.length_pos_iff.mpr (upper_ne_nil c)
  rw [length_brackets, upperText_cons, List.length_append, List.length_cons] at hlength
  exact List.length_eq_one_iff.mp (by omega)

theorem accepts_brackets_self_iff {keyword : Text} :
    Bracket.Accepts (brackets keyword) keyword ↔ ∀ c ∈ keyword, ¬ Stray c := by
  induction keyword with
  | nil => exact iff_of_true trivial fun c hc => absurd hc List.not_mem_nil
  | cons c keyword ih =>
    rw [List.forall_mem_cons, not_stray_iff, ← ih]
    constructor
    · intro haccepts
      obtain ⟨d, hd⟩ := exists_upper_of_accepts haccepts
      rw [brackets_cons_of_single hd] at haccepts
      exact ⟨⟨d, hd, List.mem_cons.mp haccepts.1⟩, haccepts.2⟩
    · rintro ⟨⟨d, hd, hback⟩, haccepts⟩
      rw [brackets_cons_of_single hd]
      exact ⟨List.mem_cons.mpr hback, haccepts⟩

/-- The expansion of a keyword is read back as brackets that accept the keyword as it is written, unless a stray
character stands in it. -/
theorem accepts_own_spelling_iff {keyword : Text} (hclosing : ']' ∉ keyword) :
    ∃ bs, Bracket.readAll? (expand keyword) = some bs ∧
      (Bracket.Accepts bs keyword ↔ ∀ c ∈ keyword, ¬ Stray c) :=
  ⟨brackets keyword, readAll?_expand hclosing, accepts_brackets_self_iff⟩

/-- A keyword with an opening bracket, a lone capital and a final sigma, which is stray. -/
theorem own_spelling_of_final_sigma :
    ']' ∉ ['[', '\u0130', 'ς'] ∧
      ∃ bs, Bracket.readAll? (expand ['[', '\u0130', 'ς']) = some bs ∧
        ¬ Bracket.Accepts bs ['[', '\u0130', 'ς'] := by
  have hclosing : ']' ∉ ['[', '\u0130', 'ς'] := by decide
  have hstray : Stray 'ς' := by decide
  obtain ⟨bs, hread, haccepts⟩ := accepts_own_spelling_iff hclosing
  refine ⟨hclosing, bs, hread, ?_⟩
  rw [haccepts]
  exact fun hnone => hnone 'ς' (by simp) hstray

/-- An expansion need not accept the keyword it was made from. -/
theorem own_spelling_can_be_refused :
    ¬ ∀ keyword : Text, quote ∉ keyword → ']' ∉ keyword →
      ∃ bs, Bracket.readAll? (expand keyword) = some bs ∧ Bracket.Accepts bs keyword := by
  intro h
  have hquote : quote ∉ ['ß'] := by decide
  have hclosing : ']' ∉ ['ß'] := by decide
  obtain ⟨bs, hread, haccepts⟩ := h ['ß'] hquote hclosing
  have hexpand : Bracket.readAll? (expand ['ß']) = some [⟨['S', 's']⟩, ⟨['S', 's']⟩] := by decide +kernel
  obtain rfl := Option.some.inj (hread.symm.trans hexpand)
  revert haccepts
  decide

end AnyCase.Literal
