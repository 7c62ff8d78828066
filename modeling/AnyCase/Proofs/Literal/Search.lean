import AnyCase.Line.Basic
import AnyCase.Proofs.Text.Offset

/-!
# Where the first literal is

The search for a literal finds the place of one exactly where the line can be taken apart at its first literal, which
it can be in one way at most (`find?_exact`).
-/

/-!
## The place of a literal

A line taken apart at its first literal: no quote and no comment stand before the literal, and no quote in it. The
search finds the literal there (`find?_line`), and at the place that it gives the line comes apart again
(`part?_line`).
-/

namespace AnyCase.Literal

open Utf8

/-- The quotes that the line is taken apart at are those of its first literal. -/
structure Parted.IsFirst (p : Parted) : Prop where
  quote_not_mem_before : quote ∉ p.before
  no_comment_before : ¬ commentMarker <:+: p.before
  quote_not_mem_body : quote ∉ p.body

/-- Where the quotes stand in the line. -/
def Parted.span (p : Parted) : Span where
  opening := size p.before
  closing := size p.before + quote.utf8Size + size p.body

theorem firstAt_quote {before : Text} (hbefore : quote ∉ before) (after : Text) :
    Text.FirstAt [quote] (before ++ quote :: after) before where
  occurs := by simp
  length_le := by
    intro before' hoccurs
    refine Nat.le_of_not_lt fun hlt => ?_
    have hwithin : before' ++ [quote] <+: before := by
      refine List.prefix_of_prefix_length_le hoccurs (List.prefix_append _ _) ?_
      rw [List.length_append, List.length_singleton]
      exact hlt
    exact hbefore (hwithin.subset (by simp))

theorem offset?_quote {before : Text} (hbefore : quote ∉ before) (after : Text) :
    Text.offset? [quote] (before ++ quote :: after) = some (size before) :=
  Text.offset?_eq_some_iff.mpr ⟨before, firstAt_quote hbefore after, rfl⟩

/-- A comment marker that begins before the opening quote ends before it. -/
theorem size_le_of_comment {before after a : Text} (hbefore : ¬ commentMarker <:+: before)
    (hoccurs : a ++ commentMarker <+: before ++ quote :: after) : size before ≤ size a := by
  have ha : a <+: before ++ quote :: after := (List.prefix_append a commentMarker).trans hoccurs
  rcases List.prefix_or_prefix_of_prefix ha (List.prefix_append before (quote :: after)) with
    ⟨rest, rfl⟩ | ⟨rest, rfl⟩
  · rw [List.append_assoc, List.prefix_append_right_inj, commentMarker] at hoccurs
    -- By what is left of `before` behind `a`: nothing, one slash that the quote follows, or the whole marker.
    match rest with
    | [] => simp
    | [c] =>
      rw [List.singleton_append, List.cons_prefix_cons, List.cons_prefix_cons] at hoccurs
      exact absurd hoccurs.2.1 (by decide)
    | c :: d :: rest =>
      rw [List.cons_append, List.cons_append, List.cons_prefix_cons, List.cons_prefix_cons] at hoccurs
      obtain ⟨rfl, rfl, -⟩ := hoccurs
      exact absurd ⟨a, rest, by simp [commentMarker]⟩ hbefore
  · exact Text.size_le_of_prefix (List.prefix_append before rest)

theorem dropBytes?_behind_quote (before rest : Text) :
    (before ++ quote :: rest).dropBytes? (size before + quote.utf8Size) = some rest := by
  have hsize : size (before ++ [quote]) = size before + quote.utf8Size := by simp
  rw [← hsize, List.append_cons before quote rest]
  exact Text.dropBytes?_append (before ++ [quote]) rest

theorem Parted.line_eq (p : Parted) : p.line = p.before ++ quote :: (p.body ++ quote :: p.after) := by
  simp [Parted.line]

theorem find?_line {p : Parted} (hp : p.IsFirst) : find? p.line = some p.span := by
  have hcomment : (Text.offset? commentMarker p.line).any (· < size p.before) = false := by
    rw [Option.any_eq_false]
    intro n hn
    obtain ⟨a, hfirst, rfl⟩ := Text.offset?_eq_some_iff.mp hn
    rw [p.line_eq] at hfirst
    simpa using size_le_of_comment hp.no_comment_before hfirst.occurs
  rw [p.line_eq] at hcomment ⊢
  simp only [find?, offset?_quote hp.quote_not_mem_before, Option.bind_eq_bind, Option.bind_some, hcomment,
    dropBytes?_behind_quote, offset?_quote hp.quote_not_mem_body]
  rfl

theorem takeBytes?_line (p : Parted) : p.line.takeBytes? p.span.opening = some p.before := by
  rw [p.line_eq]
  exact Text.takeBytes?_append p.before _

theorem text?_line (p : Parted) : p.span.text? p.line = some p.body := by
  have hopening : p.span.opening + quote.utf8Size ≤ p.span.closing := Nat.le_add_right _ _
  have hwidth : p.span.closing - (p.span.opening + quote.utf8Size) = size p.body :=
    Nat.add_sub_cancel_left ..
  have hbehind : p.line.dropBytes? (p.span.opening + quote.utf8Size) = some (p.body ++ quote :: p.after) := by
    rw [p.line_eq]
    exact dropBytes?_behind_quote p.before _
  rw [Span.text?, Text.slice?, if_pos hopening, hbehind, Option.bind_some, hwidth, Text.takeBytes?_append]

theorem dropBytes?_line (p : Parted) : p.line.dropBytes? (p.span.closing + quote.utf8Size) = some p.after := by
  have hsize : size (p.before ++ quote :: p.body) = p.span.closing := by
    simp [Parted.span, Nat.add_assoc]
  rw [← hsize]
  exact dropBytes?_behind_quote (p.before ++ quote :: p.body) p.after

theorem part?_line (p : Parted) : p.span.part? p.line = some p := by
  simp only [Span.part?, takeBytes?_line, text?_line, dropBytes?_line, Option.bind_eq_bind, Option.bind_some]
  rfl

/-!
## What the search for a literal finds

The search goes through the line three times, each time for a byte offset. Together the offsets say what stands
where: the search finds a place exactly if the line can be taken apart at a first literal, and it finds the quotes
at which the line is taken apart (`find?_eq_some_iff`). This can be done in one way at most
(`Parted.IsFirst.eq_of_line_eq`), and all cuts fall between characters.
-/

variable {line before : Text} {s : Span} {p q : Parted}

theorem firstAt_quote_iff :
    Text.FirstAt [quote] line before ↔ quote ∉ before ∧ ∃ after, line = before ++ quote :: after := by
  constructor
  · rintro ⟨⟨after, rfl⟩, hlength⟩
    refine ⟨fun hmem => ?_, after, by simp⟩
    obtain ⟨a, b, rfl⟩ := List.append_of_mem hmem
    have hearlier := hlength a ⟨b ++ quote :: after, by simp⟩
    rw [List.length_append, List.length_cons] at hearlier
    omega
  · rintro ⟨hbefore, after, rfl⟩
    exact firstAt_quote hbefore after

theorem offset?_quote_eq_some_iff {n : Nat} :
    Text.offset? [quote] line = some n ↔
      ∃ before after, quote ∉ before ∧ line = before ++ quote :: after ∧ n = size before := by
  rw [Text.offset?_eq_some_iff]
  simp only [firstAt_quote_iff]
  constructor
  · rintro ⟨before, ⟨hbefore, after, hline⟩, hn⟩
    exact ⟨before, after, hbefore, hline, hn⟩
  · rintro ⟨before, after, hbefore, hline, hn⟩
    exact ⟨before, ⟨hbefore, after, hline⟩, hn⟩

/-- A comment marker within the beginning of a line is found at an offset within the beginning. -/
theorem no_comment_of_offset? (hbefore : before <+: line)
    (hoffset : ¬ (Text.offset? commentMarker line).any (· < size before)) : ¬ commentMarker <:+: before := by
  rintro ⟨a, b, rfl⟩
  rcases hfound : Text.offset? commentMarker line with _ | n
  · have hoccurs : commentMarker <:+: a ++ commentMarker ++ b := ⟨a, b, rfl⟩
    exact Text.offset?_eq_none_iff.mp hfound (hoccurs.trans hbefore.isInfix)
  · obtain ⟨first, hfirst, rfl⟩ := Text.offset?_eq_some_iff.mp hfound
    have hmarker : a ++ commentMarker <+: line := (List.prefix_append _ b).trans hbefore
    have hle : size first ≤ size a := Text.size_le_of_prefix <|
      List.prefix_of_prefix_length_le ((List.prefix_append _ _).trans hfirst.occurs)
        ((List.prefix_append _ _).trans hmarker) (hfirst.length_le a hmarker)
    have hlt : size a < size (a ++ commentMarker ++ b) := by
      have : size commentMarker = 2 := by decide
      rw [size_append, size_append]
      omega
    refine hoffset ?_
    rw [hfound, Option.any_some, decide_eq_true_eq]
    exact Nat.lt_of_le_of_lt hle hlt

theorem exists_parted_of_find? (hfind : find? line = some s) :
    ∃ p : Parted, p.IsFirst ∧ p.line = line ∧ p.span = s := by
  simp only [find?, Option.bind_eq_bind, Option.bind_eq_some_iff] at hfind
  obtain ⟨opening, hopening, hfind⟩ := hfind
  obtain ⟨before, rest, hbefore, rfl, rfl⟩ := offset?_quote_eq_some_iff.mp hopening
  split at hfind
  · simp at hfind
  · next hcomment =>
    rw [dropBytes?_behind_quote, Option.bind_some, Option.bind_eq_some_iff] at hfind
    obtain ⟨width, hclosing, hspan⟩ := hfind
    obtain ⟨body, after, hbody, rfl, rfl⟩ := offset?_quote_eq_some_iff.mp hclosing
    have hfirst : Parted.IsFirst ⟨before, body, after⟩ := {
      quote_not_mem_before := hbefore
      no_comment_before := no_comment_of_offset? (List.prefix_append before _) hcomment
      quote_not_mem_body := hbody }
    exact ⟨⟨before, body, after⟩, hfirst, Parted.line_eq _, Option.some.inj hspan⟩

/-- A place is found exactly where the line can be taken apart at its first literal. -/
theorem find?_eq_some_iff : find? line = some s ↔ ∃ p : Parted, p.IsFirst ∧ p.line = line ∧ p.span = s := by
  constructor
  · exact exists_parted_of_find?
  · rintro ⟨p, hp, rfl, rfl⟩
    exact find?_line hp

theorem find?_eq_none_iff : find? line = none ↔ ∀ p : Parted, p.IsFirst → p.line ≠ line := by
  constructor
  · rintro hnone p hp rfl
    rw [find?_line hp] at hnone
    exact Option.some_ne_none _ hnone
  · intro hline
    rw [Option.eq_none_iff_forall_ne_some]
    intro s hfind
    obtain ⟨p, hp, hpline, -⟩ := exists_parted_of_find? hfind
    exact hline p hp hpline

theorem Parted.IsFirst.eq_of_line_eq (hp : p.IsFirst) (hq : q.IsFirst) (hline : p.line = q.line) : p = q := by
  have hspan : p.span = q.span := by
    have hfind := find?_line hp
    rw [hline, find?_line hq] at hfind
    exact (Option.some.inj hfind).symm
  have hpart := part?_line p
  rw [hline, hspan, part?_line q] at hpart
  exact (Option.some.inj hpart).symm

theorem Parted.span_eq_iff {opening closing : Nat} :
    p.span = ⟨opening, closing⟩ ↔ opening = size p.before ∧ closing = opening + 1 + size p.body := by
  have hquote : quote.utf8Size = 1 := by decide
  rw [Parted.span, Span.mk.injEq, hquote]
  constructor
  · rintro ⟨rfl, rfl⟩
    exact ⟨rfl, rfl⟩
  · rintro ⟨rfl, rfl⟩
    exact ⟨rfl, rfl⟩

/-- The search behind the opening quote begins between two characters. -/
theorem exists_rest_of_offset? {n : Nat} (hopening : Text.offset? [quote] line = some n) :
    ∃ rest, line.dropBytes? (n + quote.utf8Size) = some rest := by
  obtain ⟨before, rest, -, rfl, rfl⟩ := offset?_quote_eq_some_iff.mp hopening
  exact ⟨rest, dropBytes?_behind_quote before rest⟩

/-- The search finds the places of two quotes exactly if the line is a part without quotes and comments, a quote, a
part without quotes, a quote and a rest; and then it finds the quotes between these three. There is one way at most to
take the line apart like this, and nothing is found exactly if there is none. No cut falls outside the line or into a
character: cutting at the places found gives the three parts back. -/
theorem find?_exact (line : Text) :
    (∀ opening closing, find? line = some ⟨opening, closing⟩ ↔
      ∃ p : Parted, p.IsFirst ∧ p.line = line ∧
        opening = size p.before ∧ closing = opening + 1 + size p.body) ∧
    (∀ p q : Parted, p.IsFirst → q.IsFirst → p.line = line → q.line = line → p = q) ∧
    (find? line = none ↔ ¬ ∃ p : Parted, p.IsFirst ∧ p.line = line) ∧
    (∀ opening, Text.offset? [quote] line = some opening →
      ∃ rest, line.dropBytes? (opening + quote.utf8Size) = some rest) ∧
    ∀ (s : Span) (p : Parted), find? line = some s → p.IsFirst → p.line = line →
      s.text? line = some p.body ∧ line.takeBytes? s.opening = some p.before ∧
        line.dropBytes? (s.closing + quote.utf8Size) = some p.after ∧ s.part? line = some p := by
  refine ⟨fun opening closing => ?_, ?_, ?_, fun opening => exists_rest_of_offset?, ?_⟩
  · rw [find?_eq_some_iff]
    simp only [Parted.span_eq_iff]
  · intro p q hp hq hpline hqline
    exact hp.eq_of_line_eq hq (hpline.trans hqline.symm)
  · rw [find?_eq_none_iff]
    simp
  · rintro s p hfind hp rfl
    obtain rfl := Option.some.inj ((find?_line hp).symm.trans hfind)
    exact ⟨text?_line p, takeBytes?_line p, dropBytes?_line p, part?_line p⟩

/-- A slash just before the literal, a comment marker in it and one behind it, with characters of two bytes. -/
theorem find?_between_slashes :
    let line : Text := ['é', '/', '\x27', '/', '/', 'ß', '\x27', '/', '/', '\x27']
    let p : Parted := ⟨['é', '/'], ['/', '/', 'ß'], ['/', '/', '\x27']⟩
    (p.IsFirst ∧ p.line = line) ∧ find? line = some ⟨3, 8⟩ ∧
      (∀ q : Parted, q.IsFirst → q.line = line → q = p) ∧
      (∃ rest, line.dropBytes? 4 = some rest) ∧
      Span.text? ⟨3, 8⟩ line = some p.body ∧ Span.part? ⟨3, 8⟩ line = some p := by
  intro line p
  have hp : p.IsFirst := ⟨by decide, by decide, by decide⟩
  have hline : p.line = line := rfl
  obtain ⟨hsome, hunique, -, hrest, hcut⟩ := find?_exact line
  have hfind : find? line = some ⟨3, 8⟩ := (hsome 3 8).mpr ⟨p, hp, hline, by decide, by decide⟩
  obtain ⟨htext, -, -, hpart⟩ := hcut ⟨3, 8⟩ p hfind hp hline
  exact ⟨⟨hp, hline⟩, hfind, fun q hq hqline => hunique q p hq hp hqline hline, hrest 3 (by decide), htext,
    hpart⟩

end AnyCase.Literal
