import AnyCase.Proofs.Literal.Search

/-!
# A literal and what stands around it

Before its first literal a line is clear: nothing in it has opened a literal or begun a comment. Clear texts stay clear
when they are put together, unless the last slash of one meets the first slash of the other (`clear_append_iff`).

So a text behind the line leaves the place of its literal as it is (`find?_append`), one without quotes also leaves a
line without a literal as it is (`find?_append_of_quote_not_mem`), and a clear one before the line moves the place by
its size (`find?_behind`). A line has no literal if a comment begins before every quote (`find?_of_comment`), or if its
only quote is never closed (`find?_of_unclosed`).
-/

namespace AnyCase.Literal

open Utf8

variable {a b line text : Text} {s : Span} {p : Parted}

/-- Neither a quote nor a comment stands in the text. -/
structure Clear (text : Text) : Prop where
  quote_not_mem : quote ∉ text
  no_comment : ¬ commentMarker <:+: text

theorem clear_nil : Clear [] where
  quote_not_mem := List.not_mem_nil
  no_comment := by decide

theorem clear_singleton {c : Char} (hc : c ≠ quote) : Clear [c] where
  quote_not_mem := by
    rw [List.mem_singleton]
    exact Ne.symm hc
  no_comment hoccurs := absurd hoccurs.length_le (by simp [commentMarker])

theorem Parted.IsFirst.clear (hp : p.IsFirst) : Clear p.before where
  quote_not_mem := hp.quote_not_mem_before
  no_comment := hp.no_comment_before

theorem Clear.isFirst {body : Text} (hclear : Clear text) (hbody : quote ∉ body) (after : Text) :
    Parted.IsFirst ⟨text, body, after⟩ where
  quote_not_mem_before := hclear.quote_not_mem
  no_comment_before := hclear.no_comment
  quote_not_mem_body := hbody

/-! ### Comments across a seam -/

/-- The last slash of one text and the first slash of the next make a comment marker. -/
def Seam (a b : Text) : Prop :=
  a.getLast? = some '/' ∧ b.head? = some '/'

theorem comment_infix_of_seam (hseam : Seam a b) : commentMarker <:+: a ++ b := by
  obtain ⟨hlast, hhead⟩ := hseam
  obtain ⟨a', rfl⟩ := List.getLast?_eq_some_iff.mp hlast
  obtain ⟨b', rfl⟩ := List.head?_eq_some_iff.mp hhead
  exact ⟨a', b', by simp [commentMarker]⟩

theorem comment_infix_append_iff :
    commentMarker <:+: a ++ b ↔ commentMarker <:+: a ∨ commentMarker <:+: b ∨ Seam a b := by
  constructor
  · intro hoccurs
    rcases List.infix_append_iff.mp hoccurs with ha | hb | ⟨l, r, hmarker, hl, hr⟩
    · exact .inl ha
    · exact .inr (.inl hb)
    · -- By what part of the marker stands before the seam: nothing, one slash, or all of it.
      match l with
      | [] =>
        rw [List.nil_append] at hmarker
        exact .inr (.inl (hmarker ▸ hr.isInfix))
      | [c] =>
        obtain ⟨rfl, rfl⟩ := List.cons.inj hmarker
        obtain ⟨a', rfl⟩ := hl
        obtain ⟨b', rfl⟩ := hr
        exact .inr (.inr ⟨List.getLast?_concat, rfl⟩)
      | c :: d :: l =>
        have hnil : l ++ r = [] := (List.cons.inj (List.cons.inj hmarker).2).2.symm
        obtain ⟨rfl, rfl⟩ := List.append_eq_nil_iff.mp hnil
        rw [List.append_nil] at hmarker
        exact .inl (hmarker ▸ hl.isInfix)
  · rintro (ha | hb | hseam)
    · exact ha.trans (List.prefix_append a b).isInfix
    · exact hb.trans (List.suffix_append a b).isInfix
    · exact comment_infix_of_seam hseam

theorem clear_append_iff : Clear (a ++ b) ↔ Clear a ∧ Clear b ∧ ¬ Seam a b := by
  constructor
  · rintro ⟨hquote, hcomment⟩
    rw [List.mem_append, not_or] at hquote
    rw [comment_infix_append_iff, not_or, not_or] at hcomment
    exact ⟨⟨hquote.1, hcomment.1⟩, ⟨hquote.2, hcomment.2.1⟩, hcomment.2.2⟩
  · rintro ⟨ha, hb, hseam⟩
    refine ⟨fun hmem => ?_, fun hoccurs => ?_⟩
    · exact (List.mem_append.mp hmem).elim ha.quote_not_mem hb.quote_not_mem
    · rcases comment_infix_append_iff.mp hoccurs with hoccurs | hoccurs | hseam'
      · exact ha.no_comment hoccurs
      · exact hb.no_comment hoccurs
      · exact hseam hseam'

/-! ### Lines without a literal -/

/-- A beginning of the line without a quote ends before the literal. -/
theorem Parted.prefix_before (p : Parted) (ha : quote ∉ a) (hbegins : a <+: p.line) : a <+: p.before := by
  have hquoted : p.before ++ [quote] <+: p.line := ⟨p.body ++ quote :: p.after, by simp [p.line_eq]⟩
  rcases List.prefix_or_prefix_of_prefix hbegins hquoted with hwithin | hwithin
  · rcases List.prefix_concat_iff.mp hwithin with rfl | hwithin
    · simp at ha
    · exact hwithin
  · exact absurd (hwithin.subset (by simp)) ha

theorem find?_of_comment (ha : quote ∉ a) (rest : Text) : find? (a ++ commentMarker ++ rest) = none := by
  rw [find?_eq_none_iff]
  intro p hp hline
  have hmarked : quote ∉ a ++ commentMarker := by
    rw [List.mem_append, not_or]
    exact ⟨ha, by decide⟩
  have hbefore : a ++ commentMarker <+: p.before :=
    p.prefix_before hmarked (hline ▸ List.prefix_append (a ++ commentMarker) rest)
  have hcomment : commentMarker <:+: p.before := (List.suffix_append a commentMarker).isInfix.trans hbefore.isInfix
  exact hp.no_comment_before hcomment

/-- A literal takes two quotes. -/
theorem find?_of_count_lt (hcount : line.count quote < 2) : find? line = none := by
  rw [find?_eq_none_iff]
  rintro p - rfl
  rw [p.line_eq, List.count_append, List.count_cons_self, List.count_append, List.count_cons_self] at hcount
  omega

theorem find?_of_quote_not_mem (hline : quote ∉ line) : find? line = none := by
  apply find?_of_count_lt
  rw [List.count_eq_zero.mpr hline]
  exact Nat.two_pos

theorem find?_of_unclosed (ha : quote ∉ a) (hb : quote ∉ b) : find? (a ++ quote :: b) = none := by
  apply find?_of_count_lt
  rw [List.count_append, List.count_cons_self, List.count_eq_zero.mpr ha, List.count_eq_zero.mpr hb]
  exact Nat.one_lt_two

/-! ### Texts behind and before a line -/

/-- The parts of the line, with a text behind it. -/
def Parted.append (p : Parted) (text : Text) : Parted :=
  { p with after := p.after ++ text }

/-- The parts of the line, with a text before it. -/
def Parted.behind (text : Text) (p : Parted) : Parted :=
  { p with before := text ++ p.before }

theorem Parted.line_append (p : Parted) (text : Text) : (p.append text).line = p.line ++ text := by
  simp [Parted.line, Parted.append]

theorem Parted.line_behind (text : Text) (p : Parted) : (p.behind text).line = text ++ p.line := by
  simp [Parted.line, Parted.behind]

theorem Parted.IsFirst.append (hp : p.IsFirst) (text : Text) : (p.append text).IsFirst :=
  hp.clear.isFirst hp.quote_not_mem_body (p.after ++ text)

theorem Parted.head?_line_of_head?_before {c : Char} (hhead : p.before.head? = some c) : p.line.head? = some c := by
  rw [p.line_eq, List.head?_append, hhead]
  rfl

theorem Parted.IsFirst.behind (hp : p.IsFirst) (htext : Clear text) (hseam : ¬ Seam text p.line) :
    (p.behind text).IsFirst := by
  have hclear : Clear (text ++ p.before) :=
    clear_append_iff.mpr ⟨htext, hp.clear, fun h => hseam ⟨h.1, Parted.head?_line_of_head?_before h.2⟩⟩
  exact hclear.isFirst hp.quote_not_mem_body p.after

/-- A first literal behind a text without quotes is the first one also if the text is taken away. -/
theorem Parted.IsFirst.exists_behind (hp : p.IsFirst) (htext : quote ∉ text) (hline : p.line = text ++ line) :
    ∃ q : Parted, q.IsFirst ∧ q.line = line := by
  obtain ⟨before, hbefore⟩ := p.prefix_before htext (hline ▸ List.prefix_append text line)
  obtain ⟨-, hclear, -⟩ := clear_append_iff.mp (hbefore ▸ hp.clear)
  have hbehind : Parted.behind text ⟨before, p.body, p.after⟩ = p := by
    rw [Parted.behind, hbefore]
  have hcancel : text ++ Parted.line ⟨before, p.body, p.after⟩ = text ++ line := by
    rw [← Parted.line_behind, hbehind, hline]
  exact ⟨⟨before, p.body, p.after⟩, hclear.isFirst hp.quote_not_mem_body p.after,
    List.append_cancel_left hcancel⟩

theorem concat_prefix_of_not_mem {c : Char} (hc : c ∉ b) (hstarts : text ++ [c] <+: a ++ b) : text ++ [c] <+: a := by
  rcases List.prefix_or_prefix_of_prefix hstarts (List.prefix_append a b) with hwithin | hbegins
  · exact hwithin
  · rcases List.prefix_concat_iff.mp hbegins with rfl | ⟨rest, rfl⟩
    · exact List.prefix_rfl
    · rw [List.append_assoc, List.prefix_append_right_inj] at hstarts
      exact absurd (hstarts.subset (by simp)) hc

/-- A first literal before a text without quotes is the first one also if the text is taken away. -/
theorem Parted.IsFirst.exists_append (hp : p.IsFirst) (htext : quote ∉ text) (hline : p.line = line ++ text) :
    ∃ q : Parted, q.IsFirst ∧ q.line = line := by
  have hquoted : p.before ++ quote :: p.body ++ [quote] <+: line ++ text := by
    rw [← hline]
    exact ⟨p.after, by simp [p.line_eq]⟩
  obtain ⟨after, rfl⟩ := concat_prefix_of_not_mem htext hquoted
  exact ⟨⟨p.before, p.body, after⟩, hp.clear.isFirst hp.quote_not_mem_body after, by simp [Parted.line_eq]⟩

theorem find?_append (hfind : find? line = some s) (text : Text) : find? (line ++ text) = some s := by
  obtain ⟨p, hp, rfl, rfl⟩ := exists_parted_of_find? hfind
  rw [← p.line_append]
  exact find?_line (hp.append text)

/-- A text without quotes behind a line neither completes a literal nor takes one away. -/
theorem find?_append_of_quote_not_mem (htext : quote ∉ text) : find? (line ++ text) = find? line := by
  rcases hfind : find? line with _ | s
  · rw [find?_eq_none_iff]
    intro p hp hline
    obtain ⟨q, hq, hqline⟩ := hp.exists_append htext hline
    exact find?_eq_none_iff.mp hfind q hq hqline
  · exact find?_append hfind text

theorem Parted.span_behind (text : Text) (p : Parted) :
    (p.behind text).span = ⟨size text + p.span.opening, size text + p.span.closing⟩ := by
  simp only [Parted.span, Parted.behind, size_append, Nat.add_assoc]

theorem find?_behind (htext : Clear text) (hseam : ¬ Seam text line) :
    find? (text ++ line) = (find? line).map fun s => ⟨size text + s.opening, size text + s.closing⟩ := by
  rcases hfind : find? line with _ | s
  · rw [Option.map_none, find?_eq_none_iff]
    intro p hp hline
    obtain ⟨q, hq, hqline⟩ := hp.exists_behind htext.quote_not_mem hline
    exact find?_eq_none_iff.mp hfind q hq hqline
  · obtain ⟨q, hq, rfl, rfl⟩ := exists_parted_of_find? hfind
    rw [← q.line_behind, find?_line (hq.behind htext hseam), q.span_behind]
    rfl

end AnyCase.Literal
