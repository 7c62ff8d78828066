import AnyCase.Proofs.Line.Rewrite
import AnyCase.Proofs.Stream.Schedule

/-!
# How long expansions and outputs are

The bytes of a bracket are counted on the entries of the case tables, and the count is carried from there to keywords,
lines and the output of a run (`size_bounds`).
-/

/-!
## How long an expansion is

A character and its lower-case form are in brackets at most four times as long as the character, and exactly four
times if it is ASCII; so an expansion is at most four times as long as the upper-case form of its keyword
(`size_expand_le`). The keyword itself can be shorter than that form. The brackets for the upper-case form of one
character are at most nine times as long as that character (`size_expand_le_keyword`).
-/

namespace AnyCase.Literal

open Unicode Utf8

/-! ### Code points -/

/-- The number of bytes that encode a code point. -/
def codeSize (code : Nat) : Nat :=
  if code ≤ 0x7F then 1 else if code ≤ 0x7FF then 2 else if code ≤ 0xFFFF then 3 else 4

/-- The number of bytes that encode code points. -/
def codesSize (codes : List Nat) : Nat :=
  codes.foldr (fun code n => codeSize code + n) 0

/-- The number of bytes of the bracket for a code point that has this lower-case form. -/
def bracketSize (code : Nat) (lowered : List Nat) : Nat :=
  codeSize code + codesSize lowered + 2

/-- The number of bytes of the brackets for code points. -/
def bracketsSize (codes : List Nat) : Nat :=
  codes.foldr (fun code n => bracketSize code (lowerTable.map code) + n) 0

theorem codeSize_pos (code : Nat) : 0 < codeSize code := by
  grind [codeSize]

theorem codeSize_eq_one_iff {code : Nat} : codeSize code = 1 ↔ code < 0x80 := by
  grind [codeSize]

-- A lower-case form has at most one byte more than its capital, and only where the capital has two or more.
theorem bracketSize_lowerTable (code : Nat) :
    bracketSize code (lowerTable.map code) ≤ 4 * codeSize code ∧
      (bracketSize code (lowerTable.map code) = 4 * codeSize code ↔ code < 0x80) := by
  apply CaseTable.forall_map
    (P := fun code codes => bracketSize code codes ≤ 4 * codeSize code ∧
      (bracketSize code codes = 4 * codeSize code ↔ code < 0x80))
  · decide +kernel
  · decide +kernel
  · intro code _
    have hpos := codeSize_pos code
    rw [← codeSize_eq_one_iff]
    change codeSize code + codeSize code + 2 ≤ _ ∧ (codeSize code + codeSize code + 2 = _ ↔ _)
    omega

theorem bracketsSize_expansions :
    ∀ b ∈ upperTable, ∀ e ∈ b.expansions, bracketsSize e.2 ≤ 9 * codeSize e.1 := by
  decide +kernel

theorem codeSize_targets :
    ∀ b ∈ upperTable, ∀ r ∈ b.runs, ∀ k ∈ r.offsets,
      4 * codeSize (r.target + k) ≤ 9 * codeSize (r.first + k) := by
  decide +kernel

theorem bracketsSize_upperTable (code : Nat) : bracketsSize (upperTable.map code) ≤ 9 * codeSize code := by
  apply CaseTable.forall_map (P := fun code codes => bracketsSize codes ≤ 9 * codeSize code)
  · exact bracketsSize_expansions
  · intro b hb r hr k hk
    have htarget := (bracketSize_lowerTable (r.target + k)).1
    exact Nat.le_trans htarget (codeSize_targets b hb r hr k hk)
  · intro code _
    have hself := (bracketSize_lowerTable code).1
    exact Nat.le_trans hself (Nat.mul_le_mul_right _ (by decide))

/-! ### Characters and texts -/

theorem utf8Size_eq_codeSize (c : Char) : c.utf8Size = codeSize c.toNat := by
  rw [Char.utf8Size, codeSize]
  simp only [UInt32.le_iff_toNat_le, UInt32.toNat_ofNatLT]
  rfl

theorem size_eq_codesSize (t : Text) : size t = codesSize (t.map Char.toNat) := by
  induction t with
  | nil => rfl
  | cons c t ih =>
    rw [size_cons, ih, utf8Size_eq_codeSize]
    rfl

theorem size_brackets_cons (c : Char) (t : Text) :
    size (Bracket.renderAll ((c :: t).map eitherCase)) =
      bracketSize c.toNat (lowerTable.map c.toNat) + size (Bracket.renderAll (t.map eitherCase)) := by
  have hopen : ('[' : Char).utf8Size = 1 := by decide
  have hclose : (']' : Char).utf8Size = 1 := by decide
  rw [renderAll_eitherCase_cons, size_cons, size_cons, size_append, size_cons, hopen, hclose,
    size_eq_codesSize (lower c), map_toNat_lower, utf8Size_eq_codeSize, bracketSize]
  omega

theorem size_brackets (t : Text) :
    size (Bracket.renderAll (t.map eitherCase)) = bracketsSize (t.map Char.toNat) := by
  induction t with
  | nil => rfl
  | cons c t ih =>
    rw [size_brackets_cons, ih]
    rfl

/-- In brackets a text is at most four times as long, and exactly four times if all of it is ASCII. -/
theorem size_brackets_le (t : Text) :
    size (Bracket.renderAll (t.map eitherCase)) ≤ 4 * size t ∧
      (size (Bracket.renderAll (t.map eitherCase)) = 4 * size t ↔ ∀ c ∈ t, c.toNat < 0x80) := by
  induction t with
  | nil => simp [Bracket.renderAll]
  | cons c t ih =>
    obtain ⟨hle, heq⟩ := ih
    obtain ⟨hfirst, hascii⟩ := bracketSize_lowerTable c.toNat
    rw [size_brackets_cons, size_cons, utf8Size_eq_codeSize, List.forall_mem_cons, ← heq, ← hascii]
    omega

theorem size_expand_le (keyword : Text) :
    size (expand keyword) ≤ 4 * size (upperText keyword) ∧
      (size (expand keyword) = 4 * size (upperText keyword) ↔ ∀ c ∈ upperText keyword, c.toNat < 0x80) :=
  size_brackets_le (upperText keyword)

theorem expand_cons (c : Char) (keyword : Text) :
    expand (c :: keyword) = Bracket.renderAll ((upper c).map eitherCase) ++ expand keyword := by
  rw [expand, brackets, upperText_cons, List.map_append, Bracket.renderAll_append]
  rfl

theorem size_expand_le_keyword (keyword : Text) : size (expand keyword) ≤ 9 * size keyword := by
  induction keyword with
  | nil => exact Nat.le_refl 0
  | cons c keyword ih =>
    have hfirst := bracketsSize_upperTable c.toNat
    rw [expand_cons, size_append, size_brackets, map_toNat_upper, size_cons, utf8Size_eq_codeSize]
    omega

/-- The bound is reached where three characters become of one. -/
example : size (expand ['\u0390']) = 9 * size ['\u0390'] := by decide +kernel

end AnyCase.Literal

/-!
## How long the output of a run is

A line grows by the expansion of its keyword only, so it comes out at most nine times as long (`size_rewrite_le`).
The pieces that a run means to write are rewritten lines, and its output is the beginning of them, so the bound holds
of the output of every run (`size_bounds`).
-/

namespace AnyCase.Stream

open Literal Unicode Utf8

theorem size_rewrite_le (line : Text) : size (Line.rewrite line) ≤ 9 * size line := by
  cases hfind : find? line with
  | none =>
    rw [Line.rewrite_of_find?_eq_none hfind]
    omega
  | some span =>
    obtain ⟨p, hp, rfl, -⟩ := exists_parted_of_find? hfind
    have hexpand := size_expand_le_keyword p.body
    rw [Line.rewrite_line hp, p.line_eq]
    simp only [size_append, size_cons]
    omega

theorem length_le_of_rewritten? {line piece : Bytes} (hpiece : rewritten? line = some piece) :
    piece.length ≤ 9 * line.length := by
  obtain ⟨text, htext, rfl⟩ := Option.map_eq_some_iff.mp hpiece
  rw [← decode?_eq_some_iff.mp htext, length_encode, length_encode]
  exact size_rewrite_le text

theorem length_pieces_sending_le (later : Course) (lines : List Bytes) :
    (later.sending lines).pieces.flatten.length ≤ 9 * lines.flatten.length + later.pieces.flatten.length := by
  induction lines with
  | nil => exact Nat.le_add_left _ _
  | cons line lines ih =>
    rw [Course.sending]
    cases hpiece : rewritten? line with
    | none => exact Nat.zero_le _
    | some piece =>
      have hle := length_le_of_rewritten? hpiece
      simp only [List.flatten_cons, List.length_append]
      omega

theorem length_pieces_lastCourse_le (failure : Option Fault) (rest : Bytes) :
    (lastCourse failure rest).pieces.flatten.length ≤ 9 * rest.length := by
  cases failure with
  | some f => exact Nat.zero_le _
  | none =>
    have hle := length_pieces_sending_le ⟨[], none⟩ (if rest.isEmpty then [] else [rest])
    have hrest : (if rest.isEmpty then [] else [rest]).flatten = rest := by
      cases rest <;> simp
    rw [hrest] at hle
    exact hle

theorem length_pieces_course_le (arrivals : List Arrival) :
    (course arrivals).pieces.flatten.length ≤ 9 * (delivered arrivals).length := by
  let c := cut (delivered arrivals)
  have hlines := length_pieces_sending_le (lastCourse (failure? arrivals) c.rest) c.lines
  have hrest := length_pieces_lastCourse_le (failure? arrivals) c.rest
  have hcut : c.lines.flatten.length + c.rest.length = (delivered arrivals).length := by
    rw [← List.length_append, flatten_cut]
  change ((lastCourse (failure? arrivals) c.rest).sending c.lines).pieces.flatten.length ≤ _
  omega

/-- An expansion is at most four times as long as the upper-case form of its keyword, exactly four times if all of
that form is ASCII, and at most nine times as long as the keyword. What a run writes is at most nine times as long as
the bytes that were delivered, however they were read, whatever the device answers and however the run ends. -/
theorem size_bounds :
    (∀ keyword : Text,
      (encode (expand keyword)).length ≤ 4 * (encode (upperText keyword)).length ∧
        ((encode (expand keyword)).length = 4 * (encode (upperText keyword)).length ↔
          ∀ c ∈ upperText keyword, c.toNat < 0x80) ∧
        (encode (expand keyword)).length ≤ 9 * (encode keyword).length) ∧
    ∀ (arrivals : List Arrival) (answers : List WriteAnswer) (flushFault : Option Fault),
      (outcome arrivals answers flushFault).output.length ≤ 9 * (delivered arrivals).length := by
  simp only [length_encode]
  refine ⟨fun keyword => ?_, fun arrivals answers flushFault => ?_⟩
  · obtain ⟨hle, heq⟩ := size_expand_le keyword
    exact ⟨hle, heq, size_expand_le_keyword keyword⟩
  · have houtput := (output_prefix_pieces arrivals answers flushFault).length_le
    exact Nat.le_trans houtput (length_pieces_course_le arrivals)

end AnyCase.Stream
