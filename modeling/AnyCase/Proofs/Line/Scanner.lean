import AnyCase.Proofs.Line.Rewrite

/-!
# One pass is enough

The machine that reads a line once makes the same of it as the searches by offset. What it has read before it meets a
quote is clear, and of this it remembers only whether a slash stands at the end; that decides whether the next
character begins a comment (`clear_concat`). So at every character, what it makes of the rest is what remains to be
done of the whole line (`behind_scanOutside`, `behind_scanKeyword`).
-/

namespace AnyCase.Line

open Literal

variable {before keyword : Text}

/-- What the machine made of the end of a line, with the beginning before it. -/
def Scanned.behind (before : Text) (s : Scanned) : Scanned :=
  { s with text := before ++ s.text }

/-- What rewriting makes of a line, and whether it found a literal. -/
def rewritten (line : Text) : Scanned where
  text := rewrite line
  closed := (rewrite? line).isSome

theorem Scanned.behind_cons (before : Text) (c : Char) (s : Scanned) :
    (s.cons c).behind before = s.behind (before ++ [c]) := by
  simp [Scanned.behind, Scanned.cons]

theorem rewritten_line {p : Parted} (hp : p.IsFirst) :
    rewritten p.line = ⟨p.before ++ expand p.body ++ p.after, true⟩ := by
  rw [rewritten, rewrite_line hp, rewrite?_line hp, Option.isSome_some]

theorem rewritten_of_find?_eq_none {line : Text} (hnone : find? line = none) : rewritten line = ⟨line, false⟩ := by
  rw [rewritten, rewrite_of_find?_eq_none hnone, rewrite?_of_find?_eq_none hnone, Option.isSome_none]

/-! ### After the opening quote -/

theorem behind_scanKeyword (hbefore : Clear before) (hkeyword : quote ∉ keyword) (rest : Text) :
    (scanKeyword keyword rest).behind before = rewritten (before ++ quote :: (keyword.reverse ++ rest)) := by
  induction rest generalizing keyword with
  | nil =>
    have hbody : quote ∉ keyword.reverse := by rwa [List.mem_reverse]
    rw [List.append_nil, rewritten_of_find?_eq_none (find?_of_unclosed hbefore.quote_not_mem hbody)]
    rfl
  | cons c rest ih =>
    rw [scanKeyword]
    by_cases hc : c = quote
    · subst hc
      have hfirst : Parted.IsFirst ⟨before, keyword.reverse, rest⟩ :=
        hbefore.isFirst (by rwa [List.mem_reverse]) rest
      have hline : before ++ quote :: (keyword.reverse ++ quote :: rest) =
          Parted.line ⟨before, keyword.reverse, rest⟩ :=
        (Parted.line_eq ⟨before, keyword.reverse, rest⟩).symm
      rw [if_pos rfl, hline, rewritten_line hfirst, Scanned.behind, List.append_assoc]
    · have hmem : quote ∉ c :: keyword := by
        rw [List.mem_cons, not_or]
        exact ⟨Ne.symm hc, hkeyword⟩
      rw [if_neg hc, ih hmem, List.reverse_cons, List.append_assoc, List.singleton_append]

/-! ### Outside a literal -/

/-- Whether the last character copied was a slash. -/
def afterSlash (before : Text) : Bool :=
  before.getLast? = some '/'

theorem afterSlash_concat (before : Text) (c : Char) : afterSlash (before ++ [c]) = decide (c = '/') := by
  simp [afterSlash]

/-- The text copied stays clear with a character that is no quote and no second slash. -/
theorem clear_concat (hbefore : Clear before) {c : Char} (hquote : c ≠ quote)
    (hslash : ¬ (c = '/' ∧ afterSlash before)) : Clear (before ++ [c]) := by
  refine clear_append_iff.mpr ⟨hbefore, clear_singleton hquote, ?_⟩
  rintro ⟨hlast, hhead⟩
  exact hslash ⟨Option.some.inj hhead, decide_eq_true hlast⟩

theorem behind_scanOutside (hbefore : Clear before) (rest : Text) :
    (scanOutside (afterSlash before) rest).behind before = rewritten (before ++ rest) := by
  -- Each character read moves from `rest` to `before`, which stays clear up to a quote or a comment.
  induction rest generalizing before with
  | nil =>
    rw [List.append_nil, rewritten_of_find?_eq_none (find?_of_quote_not_mem hbefore.quote_not_mem), scanOutside,
      Scanned.behind, List.append_nil]
  | cons c rest ih =>
    rw [scanOutside]
    by_cases hcomment : c = '/' ∧ afterSlash before
    · obtain ⟨rfl, hlast⟩ := hcomment
      obtain ⟨start, rfl⟩ := List.getLast?_eq_some_iff.mp (of_decide_eq_true hlast)
      have hstart : quote ∉ start := fun hmem => hbefore.quote_not_mem (List.mem_append_left _ hmem)
      have hline : start ++ ['/'] ++ '/' :: rest = start ++ commentMarker ++ rest := by
        simp [commentMarker]
      rw [if_pos (by simp [hlast]), hline, rewritten_of_find?_eq_none (find?_of_comment hstart rest), ← hline]
      rfl
    · rw [if_neg (by simpa using hcomment)]
      by_cases hquote : c = quote
      · rw [if_pos hquote, hquote, behind_scanKeyword hbefore List.not_mem_nil]
        rfl
      · rw [if_neg hquote, Scanned.behind_cons, ← afterSlash_concat before c,
          ih (clear_concat hbefore hquote hcomment), List.append_assoc, List.singleton_append]

/-- The machine makes of a line what rewriting makes of it, and meets the second quote of a literal exactly if the
line is rewritten. -/
theorem rewrite_in_one_pass (line : Text) :
    rewrite line = (scan line).text ∧ ((rewrite? line).isSome ↔ (scan line).closed = true) := by
  have hscan : (scan line).behind [] = rewritten line := behind_scanOutside clear_nil line
  have htext : (scan line).text = rewrite line := congrArg Scanned.text hscan
  have hclosed : (scan line).closed = (rewrite? line).isSome := congrArg Scanned.closed hscan
  rw [htext, hclosed]
  exact ⟨rfl, Iff.rfl⟩

example : scan ['/', '\x27', '/', '/', '\x27', '/', '/', '\x27'] =
    ⟨['/', '[', '/', '/', ']', '[', '/', '/', ']', '/', '/', '\x27'], true⟩ := by decide +kernel

end AnyCase.Line
