import AnyCase.Proofs.Literal.Context
import AnyCase.Proofs.Literal.Expansion

/-!
# What a rewritten line is

A line comes out as the parts around its first literal with the expansion between them. What stands around a line, and
what ends it, comes out with it.
-/

/-!
## Lines that differ in their keyword

A line is rewritten to the parts around its first literal with the keyword expanded between them (`rewrite_line`).
So lines that differ in that keyword alone come out the same exactly when their keywords expand alike, which is
when they have the same upper-case form (`same_expansion_iff_same_capitals`).
-/

namespace AnyCase.Line

open Literal Unicode

theorem rewrite?_line {p : Parted} (hp : p.IsFirst) :
    rewrite? p.line = some (p.before ++ expand p.body ++ p.after) := by
  rw [rewrite?, find?_line hp, Option.bind_eq_bind, Option.bind_some, part?_line]
  rfl

theorem rewrite_line {p : Parted} (hp : p.IsFirst) :
    rewrite p.line = p.before ++ expand p.body ++ p.after := by
  rw [rewrite, rewrite?_line hp, Option.getD_some]

theorem rewrite?_of_find?_eq_none {line : Text} (hnone : find? line = none) : rewrite? line = none := by
  rw [rewrite?, hnone]
  rfl

/-- A line without a literal stays as it is. -/
theorem rewrite_of_find?_eq_none {line : Text} (hnone : find? line = none) : rewrite line = line := by
  rw [rewrite, rewrite?_of_find?_eq_none hnone, Option.getD_none]

theorem rewrite_line_eq_iff {before after s t : Text}
    (hs : Parted.IsFirst ⟨before, s, after⟩) (ht : Parted.IsFirst ⟨before, t, after⟩) :
    rewrite (Parted.line ⟨before, s, after⟩) = rewrite (Parted.line ⟨before, t, after⟩) ↔
      expand s = expand t := by
  rw [rewrite_line hs, rewrite_line ht, List.append_cancel_right_eq, List.append_cancel_left_eq]

/-- Two keywords have the same expansion exactly when they have the same upper-case form, and the same holds of a
line that is rewritten with one of them and with the other. -/
theorem same_expansion_iff_same_capitals :
    (∀ s t : Text, expand s = expand t ↔ upperText s = upperText t) ∧
    ∀ before after s t : Text,
      quote ∉ before → ¬ commentMarker <:+: before → quote ∉ s → quote ∉ t →
      (rewrite (before ++ quote :: s ++ quote :: after) = rewrite (before ++ quote :: t ++ quote :: after) ↔
        upperText s = upperText t) := by
  refine ⟨fun _ _ => expand_eq_iff, fun before after s t hbefore hcomment hs ht => ?_⟩
  rw [← expand_eq_iff]
  exact rewrite_line_eq_iff ⟨hbefore, hcomment, hs⟩ ⟨hbefore, hcomment, ht⟩

theorem same_expansion_of_sharp_s :
    quote ∉ ['T', ':', ' ', '/'] ∧ ¬ commentMarker <:+: ['T', ':', ' ', '/'] ∧
    quote ∉ ['[', 'ß'] ∧ quote ∉ ['[', 's', 'S'] ∧
    rewrite ['T', ':', ' ', '/', '\x27', '[', 'ß', '\x27', ';'] =
      rewrite ['T', ':', ' ', '/', '\x27', '[', 's', 'S', '\x27', ';'] := by
  have hbefore : quote ∉ ['T', ':', ' ', '/'] := by decide
  have hcomment : ¬ commentMarker <:+: ['T', ':', ' ', '/'] := by decide
  have hs : quote ∉ ['[', 'ß'] := by decide
  have ht : quote ∉ ['[', 's', 'S'] := by decide
  refine ⟨hbefore, hcomment, hs, ht, ?_⟩
  exact (same_expansion_iff_same_capitals.2 _ [';'] _ _ hbefore hcomment hs ht).mpr (by decide +kernel)

/-!
## Rewriting inside a longer line

What rewriting does to a line depends on its first literal, and so it does the same to the line within a longer one
that has no other first literal: with anything behind a literal (`rewrite_append`) or behind a comment
(`rewrite_of_comment`), with a text without quotes behind any line (`rewrite_append_of_quote_not_mem`), and with a
clear text before the line (`rewrite_behind`).
-/

open Utf8

variable {line text start : Text} {s : Span}

theorem rewrite_append (hfind : find? line = some s) (text : Text) : rewrite (line ++ text) = rewrite line ++ text := by
  obtain ⟨p, hp, rfl, -⟩ := exists_parted_of_find? hfind
  rw [← p.line_append, rewrite_line (hp.append text), rewrite_line hp, Parted.append]
  simp only [List.append_assoc]

theorem rewrite_append_of_quote_not_mem (htext : quote ∉ text) : rewrite (line ++ text) = rewrite line ++ text := by
  rcases hfind : find? line with _ | s
  · have hnone : find? (line ++ text) = none := by rw [find?_append_of_quote_not_mem htext, hfind]
    rw [rewrite_of_find?_eq_none hnone, rewrite_of_find?_eq_none hfind]
  · exact rewrite_append hfind text

theorem rewrite_of_comment (hstart : quote ∉ start) (rest : Text) :
    rewrite (start ++ commentMarker ++ rest) = start ++ commentMarker ++ rest :=
  rewrite_of_find?_eq_none (find?_of_comment hstart rest)

theorem rewrite_behind (htext : Clear text) (hseam : ¬ Seam text line) :
    rewrite (text ++ line) = text ++ rewrite line := by
  rcases hfind : find? line with _ | s
  · have hnone : find? (text ++ line) = none := by rw [find?_behind htext hseam, hfind, Option.map_none]
    rw [rewrite_of_find?_eq_none hnone, rewrite_of_find?_eq_none hfind]
  · obtain ⟨p, hp, rfl, -⟩ := exists_parted_of_find? hfind
    rw [← p.line_behind, rewrite_line (hp.behind htext hseam), rewrite_line hp, Parted.behind]
    simp only [List.append_assoc]

/-- A text behind a line with a literal is copied, and so is one behind a line with a comment that begins before every
quote. A text before any line is copied, and moves the literal by its size, if it has no quote and no comment, and no
slash at its end that meets a slash of the line. -/
theorem rewrite_in_context :
    (∀ (line text : Text) (s : Span), find? line = some s →
      find? (line ++ text) = some s ∧ rewrite (line ++ text) = rewrite line ++ text) ∧
    (∀ line text : Text, (∃ start rest, quote ∉ start ∧ line = start ++ commentMarker ++ rest) →
      rewrite (line ++ text) = line ++ text) ∧
    ∀ text line : Text, quote ∉ text → ¬ commentMarker <:+: text →
      ¬ (text.getLast? = some '/' ∧ line.head? = some '/') →
      rewrite (text ++ line) = text ++ rewrite line ∧
        find? (text ++ line) =
          (find? line).map fun s => ⟨size text + s.opening, size text + s.closing⟩ := by
  refine ⟨fun line text s hfind => ?_, ?_, fun text line hquote hcomment hseam => ?_⟩
  · exact ⟨find?_append hfind text, rewrite_append hfind text⟩
  · rintro line text ⟨start, rest, hstart, rfl⟩
    rw [List.append_assoc, rewrite_of_comment hstart]
  · have htext : Clear text := ⟨hquote, hcomment⟩
    exact ⟨rewrite_behind htext hseam, find?_behind htext hseam⟩

/-- Behind a literal and behind a comment stands a text that would complete another literal, and before a line that
begins with its literal stands a text that ends with a slash. -/
theorem rewrite_between_slashes :
    let literal : Text := ['é', '\x27', '/', '/', '\x27']
    let comment : Text := ['é', '/', '/', '\x27', 'x']
    let clear : Text := ['é', '/']
    let text : Text := ['\x27', 'y', '\x27']
    (find? literal = some ⟨2, 5⟩ ∧ find? (literal ++ text) = some ⟨2, 5⟩ ∧
      rewrite (literal ++ text) = rewrite literal ++ text) ∧
    ((∃ start rest, quote ∉ start ∧ comment = start ++ commentMarker ++ rest) ∧
      rewrite (comment ++ text) = comment ++ text) ∧
    (quote ∉ clear ∧ ¬ commentMarker <:+: clear ∧ ¬ (clear.getLast? = some '/' ∧ text.head? = some '/')) ∧
      rewrite (clear ++ text) = clear ++ rewrite text ∧ find? text = some ⟨0, 2⟩ ∧
        find? (clear ++ text) = some ⟨3, 5⟩ := by
  intro literal comment clear text
  obtain ⟨hbehindLiteral, hbehindComment, hbefore⟩ := rewrite_in_context
  have hfind : find? literal = some ⟨2, 5⟩ := by decide
  have hcomment : ∃ start rest, quote ∉ start ∧ comment = start ++ commentMarker ++ rest :=
    ⟨['é'], ['\x27', 'x'], by decide, rfl⟩
  have hclear : quote ∉ clear ∧ ¬ commentMarker <:+: clear ∧
      ¬ (clear.getLast? = some '/' ∧ text.head? = some '/') := by decide
  have htext : find? text = some ⟨0, 2⟩ := by decide
  obtain ⟨hrewrite, hmoved⟩ := hbefore clear text hclear.1 hclear.2.1 hclear.2.2
  rw [htext] at hmoved
  exact ⟨⟨hfind, hbehindLiteral literal text ⟨2, 5⟩ hfind⟩,
    ⟨hcomment, hbehindComment comment text hcomment⟩, hclear, hrewrite, htext, hmoved⟩

/-!
## The end of a line

Rewriting copies what stands behind the last quote of a line, so a line keeps its end (`Ended.rewrite`,
`crlf_suffix_rewrite`). Of the caseless characters it takes away quotes and adds brackets; every other one is in the
rewritten line exactly if it is in the line (`mem_rewrite_iff`), and the linefeed is one of them.
-/

theorem mem_rewrite_iff {d : Char} (hd : Caseless d) (hopen : d ≠ '[') (hclose : d ≠ ']') (hquote : d ≠ quote) :
    d ∈ rewrite line ↔ d ∈ line := by
  rcases hfind : find? line with _ | s
  · rw [rewrite_of_find?_eq_none hfind]
  · obtain ⟨p, hp, rfl, -⟩ := exists_parted_of_find? hfind
    rw [rewrite_line hp, p.line_eq]
    simp only [List.mem_append, List.mem_cons, mem_expand_iff hd hopen hclose, hquote, false_or, or_assoc]

theorem linefeed_caseless : Caseless '\n' := by
  decide +kernel

theorem linefeed_mem_rewrite_iff : '\n' ∈ rewrite line ↔ '\n' ∈ line :=
  mem_rewrite_iff linefeed_caseless (by decide) (by decide) (by decide)

/-- A line with its end: one linefeed, as its last character. -/
def Ended (line : Text) : Prop :=
  ∃ body, '\n' ∉ body ∧ line = body ++ ['\n']

theorem Ended.rewrite (hline : Ended line) : Ended (rewrite line) := by
  obtain ⟨body, hbody, rfl⟩ := hline
  refine ⟨Line.rewrite body, ?_, rewrite_append_of_quote_not_mem (by decide)⟩
  rwa [linefeed_mem_rewrite_iff]

theorem crlf_suffix_rewrite (hline : ['\r', '\n'] <:+ line) : ['\r', '\n'] <:+ rewrite line := by
  obtain ⟨body, rfl⟩ := hline
  rw [rewrite_append_of_quote_not_mem (by decide)]
  exact List.suffix_append (rewrite body) ['\r', '\n']

end AnyCase.Line
