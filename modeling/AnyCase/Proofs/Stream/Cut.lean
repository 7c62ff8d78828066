import AnyCase.Stream.Basic

/-!
# The lines of a byte sequence

`cut` says which lines stand in a sequence of bytes, without a reader, a state or chunks. It is the only way
to part the bytes into lines that each end in their one newline and a rest that has none (`cut_eq_iff`), and
the cut of two sequences behind each other comes from their cuts (`prepend_cut_append`).
-/

namespace AnyCase.Stream

/-- A sequence of bytes, cut behind each of its newlines. -/
structure Cut where
  lines : List Bytes
  rest : Bytes
deriving DecidableEq, Repr

/-- Puts bytes in front of the first line, or of the rest where there is no line. -/
def Cut.prepend (front : Bytes) : Cut → Cut
  | ⟨[], rest⟩ => ⟨[], front ++ rest⟩
  | ⟨line :: lines, rest⟩ => ⟨(front ++ line) :: lines, rest⟩

/-- The lines of a sequence of bytes, and what stands behind the last newline. -/
def cut : Bytes → Cut
  | [] => ⟨[], []⟩
  | b :: bytes =>
    if b = newline then ⟨[b] :: (cut bytes).lines, (cut bytes).rest⟩ else (cut bytes).prepend [b]

/-- All lines, with what stands behind the last newline as one more where there is anything. -/
def lines (bytes : Bytes) : List Bytes :=
  (cut bytes).lines ++ if (cut bytes).rest.isEmpty then [] else [(cut bytes).rest]

/-- A line with its end: one newline, as its last byte. -/
def IsLine (line : Bytes) : Prop :=
  ∃ body, newline ∉ body ∧ line = body ++ [newline]

namespace Cut

@[simp] theorem prepend_nil (c : Cut) : c.prepend [] = c := by
  obtain ⟨_ | ⟨line, lines⟩, rest⟩ := c <;> rfl

@[simp] theorem prepend_mk_cons (front line : Bytes) (lines : List Bytes) (rest : Bytes) :
    prepend front ⟨line :: lines, rest⟩ = ⟨(front ++ line) :: lines, rest⟩ := rfl

@[simp] theorem prepend_prepend (front front' : Bytes) (c : Cut) :
    (c.prepend front').prepend front = c.prepend (front ++ front') := by
  obtain ⟨_ | ⟨line, lines⟩, rest⟩ := c <;> simp [prepend]

theorem flatten_prepend (front : Bytes) (c : Cut) :
    (c.prepend front).lines.flatten ++ (c.prepend front).rest = front ++ (c.lines.flatten ++ c.rest) := by
  obtain ⟨_ | ⟨line, lines⟩, rest⟩ := c <;> simp [prepend]

end Cut

@[simp] theorem cut_newline_cons (bytes : Bytes) :
    cut (newline :: bytes) = ⟨[newline] :: (cut bytes).lines, (cut bytes).rest⟩ := by
  rw [cut, if_pos rfl]

theorem cut_cons_of_ne {b : UInt8} (hb : b ≠ newline) (bytes : Bytes) :
    cut (b :: bytes) = (cut bytes).prepend [b] := by
  rw [cut, if_neg hb]

theorem cut_append_of_not_mem {front : Bytes} (hfront : newline ∉ front) (bytes : Bytes) :
    cut (front ++ bytes) = (cut bytes).prepend front := by
  induction front with
  | nil => simp
  | cons b front ih =>
    have hb : b ≠ newline := fun h => hfront (by simp [h])
    rw [List.cons_append, cut_cons_of_ne hb, ih fun h => hfront (List.mem_cons_of_mem b h),
      Cut.prepend_prepend, List.singleton_append]

/-! ### The cut is the only one -/

theorem flatten_cut (bytes : Bytes) : (cut bytes).lines.flatten ++ (cut bytes).rest = bytes := by
  induction bytes with
  | nil => rfl
  | cons b bytes ih =>
    by_cases hb : b = newline
    · subst hb
      simpa using ih
    · rw [cut_cons_of_ne hb, Cut.flatten_prepend, ih, List.singleton_append]

theorem flatten_lines (bytes : Bytes) : (lines bytes).flatten = bytes := by
  have hrest : (if (cut bytes).rest.isEmpty then [] else [(cut bytes).rest]).flatten = (cut bytes).rest := by
    cases (cut bytes).rest <;> simp
  rw [lines, List.flatten_append, hrest, flatten_cut]

theorem newline_not_mem_rest_cut (bytes : Bytes) : newline ∉ (cut bytes).rest := by
  induction bytes with
  | nil => simp [cut]
  | cons b bytes ih =>
    by_cases hb : b = newline
    · subst hb
      simpa using ih
    · rw [cut_cons_of_ne hb]
      rcases hc : cut bytes with ⟨_ | ⟨line, lines⟩, rest⟩ <;> rw [hc] at ih
      · simpa [Cut.prepend, Ne.symm hb] using ih
      · exact ih

theorem isLine_of_mem_lines_cut {bytes line : Bytes} (hline : line ∈ (cut bytes).lines) : IsLine line := by
  induction bytes generalizing line with
  | nil => simp [cut] at hline
  | cons b bytes ih =>
    by_cases hb : b = newline
    · subst hb
      simp only [cut_newline_cons, List.mem_cons] at hline
      rcases hline with rfl | hline
      · exact ⟨[], by simp, rfl⟩
      · exact ih hline
    · rw [cut_cons_of_ne hb] at hline
      rcases hc : cut bytes with ⟨_ | ⟨first, lines⟩, rest⟩ <;> rw [hc] at hline ih
      · simp [Cut.prepend] at hline
      · simp only [Cut.prepend, List.mem_cons] at hline
        rcases hline with rfl | hline
        · obtain ⟨body, hbody, rfl⟩ := ih (List.mem_cons_self)
          exact ⟨b :: body, by simp [hbody, Ne.symm hb], rfl⟩
        · exact ih (List.mem_cons_of_mem _ hline)

/-- Parting the bytes into lines that each end in their one newline, and a rest without any, is done in one
way only. -/
theorem cut_eq_iff {bytes : Bytes} {c : Cut} :
    cut bytes = c ↔
      c.lines.flatten ++ c.rest = bytes ∧ (∀ line ∈ c.lines, IsLine line) ∧ newline ∉ c.rest := by
  constructor
  · rintro rfl
    exact ⟨flatten_cut bytes, fun _ => isLine_of_mem_lines_cut, newline_not_mem_rest_cut bytes⟩
  · rintro ⟨rfl, hlines, hrest⟩
    obtain ⟨lines, rest⟩ := c
    dsimp only at hlines hrest ⊢
    induction lines with
    | nil => simpa [cut, Cut.prepend] using cut_append_of_not_mem hrest []
    | cons line lines ih =>
      obtain ⟨body, hbody, rfl⟩ := hlines line (List.mem_cons_self)
      have hcut : cut (lines.flatten ++ rest) = ⟨lines, rest⟩ :=
        ih fun line h => hlines line (List.mem_cons_of_mem _ h)
      rw [List.flatten_cons, List.append_assoc, List.append_assoc, cut_append_of_not_mem hbody,
        List.singleton_append, cut_newline_cons, hcut]
      rfl

/-! ### Cutting piece by piece -/

/-- Bytes that go on behind others: the lines that were complete stay, and what was their rest goes in front
of the lines to come. -/
theorem prepend_cut_append (front a b : Bytes) :
    (cut (a ++ b)).prepend front =
      ⟨((cut a).prepend front).lines ++ ((cut b).prepend ((cut a).prepend front).rest).lines,
        ((cut b).prepend ((cut a).prepend front).rest).rest⟩ := by
  induction a generalizing front with
  | nil => simp [cut, Cut.prepend]
  | cons x a ih =>
    by_cases hx : x = newline
    · subst hx
      have := ih []
      simp only [Cut.prepend_nil] at this
      simp [this, Cut.prepend]
    · rw [List.cons_append, cut_cons_of_ne hx, cut_cons_of_ne hx, Cut.prepend_prepend,
        Cut.prepend_prepend, ih]

example : cut [0x61, newline, newline, 0x62] = ⟨[[0x61, newline], [newline]], [0x62]⟩ := by decide

end AnyCase.Stream
