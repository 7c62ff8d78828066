import AnyCase.Proofs.Line.Rewrite
import AnyCase.Proofs.Stream.Schedule

/-!
# Line by line

The lines of an encoded text are the encodings of its lines (`cut_encode`), since the newline byte stands for a
linefeed only. Rewriting keeps the one linefeed of each line where it is. So a run that nothing hinders writes as many
lines as it reads, each the rewritten one of the same number, and each of them depends on that one line alone
(`lines_of_output`).
-/

namespace AnyCase.Stream

open Utf8

variable {text rest : Text} {lines : List Text} {arrivals : List Arrival} {answers : List WriteAnswer}
  {input output : Bytes}

/-! ### Lines of bytes and lines of texts -/

theorem newline_mem_encode_iff : newline ∈ encode text ↔ '\n' ∈ text :=
  mem_encode_iff (c := '\n') (by decide)

theorem isLine_encode {line : Text} (hline : Line.Ended line) : IsLine (encode line) := by
  obtain ⟨body, hbody, rfl⟩ := hline
  refine ⟨encode body, ?_, encode_append body ['\n']⟩
  rwa [newline_mem_encode_iff]

theorem cut_encode (hlines : ∀ line ∈ lines, Line.Ended line) (hrest : '\n' ∉ rest) :
    cut (encode (lines.flatten ++ rest)) = ⟨lines.map encode, encode rest⟩ := by
  rw [cut_eq_iff]
  refine ⟨?_, ?_, ?_⟩
  · rw [encode_append, encode_flatten]
  · intro line hmem
    obtain ⟨text, htext, rfl⟩ := List.mem_map.mp hmem
    exact isLine_encode (hlines text htext)
  · rwa [newline_mem_encode_iff]

theorem exists_lines (text : Text) :
    ∃ (lines : List Text) (rest : Text),
      text = lines.flatten ++ rest ∧ (∀ line ∈ lines, Line.Ended line) ∧ '\n' ∉ rest := by
  induction text with
  | nil => exact ⟨[], [], rfl, by simp, by simp⟩
  | cons c text ih =>
    obtain ⟨lines, rest, rfl, hlines, hrest⟩ := ih
    by_cases hc : c = '\n'
    · refine ⟨['\n'] :: lines, rest, by rw [hc]; rfl, ?_, hrest⟩
      rw [List.forall_mem_cons]
      exact ⟨⟨[], List.not_mem_nil, rfl⟩, hlines⟩
    · cases lines with
      | nil => exact ⟨[], c :: rest, rfl, hlines, by simp [hrest, Ne.symm hc]⟩
      | cons line lines =>
        rw [List.forall_mem_cons] at hlines
        obtain ⟨⟨body, hbody, rfl⟩, hlines⟩ := hlines
        refine ⟨(c :: body ++ ['\n']) :: lines, rest, rfl, ?_, hrest⟩
        rw [List.forall_mem_cons]
        exact ⟨⟨c :: body, by simp [hbody, Ne.symm hc], rfl⟩, hlines⟩

/-- Well-formed bytes have well-formed lines, -/
theorem exists_texts_of_decode? {bytes : Bytes} (hbytes : decode? bytes = some text) :
    ∃ texts : List Text, Stream.lines bytes = texts.map encode ∧ texts.flatten = text := by
  obtain rfl := encode_of_decode? hbytes
  obtain ⟨ended, rest, rfl, hended, hrest⟩ := exists_lines text
  rw [Stream.lines, cut_encode hended hrest]
  by_cases hnothing : rest = []
  · subst hnothing
    exact ⟨ended, by simp, by simp⟩
  · refine ⟨ended ++ [rest], ?_, by simp⟩
    rw [if_neg (by simpa [encode_eq_nil_iff] using hnothing), List.map_append, List.map_singleton]

/-- and bytes with well-formed lines are well-formed. -/
theorem decode?_of_lines {bytes : Bytes} {texts : List Text} (hlines : Stream.lines bytes = texts.map encode) :
    decode? bytes = some texts.flatten := by
  rw [← flatten_lines bytes, hlines, ← encode_flatten, decode?_encode]

/-- There are as many newlines as lines that end in one. -/
theorem count_newline (bytes : Bytes) : bytes.count newline = (cut bytes).lines.length := by
  induction bytes with
  | nil => rfl
  | cons b bytes ih =>
    by_cases hb : b = newline
    · rw [hb, List.count_cons_self, ih, cut_newline_cons, List.length_cons]
    · rw [List.count_cons_of_ne hb, ih, cut_cons_of_ne hb]
      rcases cut bytes with ⟨_ | ⟨line, lines⟩, rest⟩ <;> rfl

/-! ### What a run writes of a text -/

/-- A run reads the bytes `input` to their end and writes the bytes `output`, all of them, in whatever parts either is
done. -/
def Turns (input output : Bytes) : Prop :=
  ∃ arrivals answers, delivered arrivals = input ∧ failure? arrivals = none ∧
    outcome arrivals answers none = ⟨output, 1, none⟩

theorem course_of_lines (hdelivered : delivered arrivals = encode (lines.flatten ++ rest))
    (hfailure : failure? arrivals = none) (hlines : ∀ line ∈ lines, Line.Ended line) (hrest : '\n' ∉ rest) :
    (course arrivals).fault = none ∧
      (course arrivals).pieces.flatten = encode ((lines.map Line.rewrite).flatten ++ Line.rewrite rest) := by
  obtain ⟨hfault, hpieces⟩ := lastCourse_encode rest
  rw [course, hdelivered, hfailure, cut_encode hlines hrest, Course.sending_map_encode]
  refine ⟨hfault, ?_⟩
  rw [List.flatten_append, flatten_map_encode_rewrite, hpieces, encode_append, List.flatMap_def]

/-- Where no read fails, a run over a text has no fault of its own. -/
theorem fault_course_of_decode? (hnone : failure? arrivals = none) (htext : decode? (delivered arrivals) = some text) :
    (course arrivals).fault = none := by
  obtain ⟨texts, hlines, -⟩ := exists_texts_of_decode? htext
  have hlegible : Legible (Stream.lines (delivered arrivals)) texts [] := ⟨by rw [hlines, List.append_nil], by simp⟩
  rw [course_of_legible hnone hlegible]
  rfl

/-- A run that ends well without a byte to write is one over a text whose lines are all rewritten to nothing. -/
theorem course_writes_nothing_iff (hnone : failure? arrivals = none) :
    (course arrivals).fault = none ∧ (course arrivals).pieces.flatten = [] ↔
      ∃ texts : List Text, decode? (delivered arrivals) = some texts.flatten ∧
        Stream.lines (delivered arrivals) = texts.map encode ∧ texts.flatMap Line.rewrite = [] := by
  constructor
  · intro ⟨hfault, hpieces⟩
    obtain ⟨texts, later, hlegible⟩ := exists_legible (Stream.lines (delivered arrivals))
    rw [course_of_legible hnone hlegible] at hfault hpieces
    have hlater : later = [] := by
      by_contra hlater
      rw [if_neg hlater] at hfault
      exact Option.some_ne_none _ hfault
    have hlines : Stream.lines (delivered arrivals) = texts.map encode := by
      rw [hlegible.eq, hlater, List.append_nil]
    rw [flatten_map_encode_rewrite, encode_eq_nil_iff] at hpieces
    exact ⟨texts, decode?_of_lines hlines, hlines, hpieces⟩
  · intro hexists
    obtain ⟨texts, -, hlines, hnothing⟩ := hexists
    have hlegible : Legible (Stream.lines (delivered arrivals)) texts [] := ⟨by rw [hlines, List.append_nil], by simp⟩
    rw [course_of_legible hnone hlegible]
    refine ⟨rfl, ?_⟩
    rw [flatten_map_encode_rewrite, hnothing, encode_nil]

theorem output_of_outcome {flushes : Nat} {flushFault : Option Fault} (hcourse : (course arrivals).fault = none)
    (houtcome : outcome arrivals answers flushFault = ⟨output, flushes, none⟩) :
    output = (course arrivals).pieces.flatten := by
  rcases hrefused : (offerAll answers (course arrivals).pieces).fault with _ | f
  · rw [outcome_of_taken hrefused, hcourse, accepted_offerAll_of_taken hrefused] at houtcome
    exact (congrArg Outcome.output houtcome).symm
  · rw [outcome_of_refused hrefused] at houtcome
    exact absurd (congrArg Outcome.fault houtcome) (Option.some_ne_none f)

theorem outcome_of_text (hdelivered : delivered arrivals = encode text) (hfailure : failure? arrivals = none) :
    ∃ output, outcome arrivals [] none = ⟨output, 1, none⟩ := by
  obtain ⟨lines, rest, rfl, hlines, hrest⟩ := exists_lines text
  obtain ⟨hfault, -⟩ := course_of_lines hdelivered hfailure hlines hrest
  rw [outcome_nil, hfault]
  exact ⟨_, rfl⟩

theorem Turns.cut_eq (hturns : Turns (encode (lines.flatten ++ rest)) output)
    (hlines : ∀ line ∈ lines, Line.Ended line) (hrest : '\n' ∉ rest) :
    cut output = ⟨lines.map fun line => encode (Line.rewrite line), encode (Line.rewrite rest)⟩ := by
  obtain ⟨arrivals, answers, hdelivered, hfailure, houtcome⟩ := hturns
  obtain ⟨hfault, hpieces⟩ := course_of_lines hdelivered hfailure hlines hrest
  have hrewritten : ∀ line ∈ lines.map Line.rewrite, Line.Ended line := by
    intro line hmem
    obtain ⟨line, hline, rfl⟩ := List.mem_map.mp hmem
    exact (hlines line hline).rewrite
  have hrewrittenRest : '\n' ∉ Line.rewrite rest := by rwa [Line.linefeed_mem_rewrite_iff]
  rw [output_of_outcome hfault houtcome, hpieces, cut_encode hrewritten hrewrittenRest, List.map_map]
  rfl

theorem rewritten?_encode (text : Text) : rewritten? (encode text) = some (encode (Line.rewrite text)) := by
  rw [rewritten?, decode?_encode, Option.map_some]

/-- Each line that a run writes comes from the line of the same number, and the rest from the rest. -/
theorem Turns.rewritten?_lines (hturns : Turns (encode text) output) :
    (∀ i : Nat, (cut output).lines[i]? = (cut (encode text)).lines[i]?.bind rewritten?) ∧
      some (cut output).rest = rewritten? (cut (encode text)).rest := by
  obtain ⟨lines, rest, rfl, hlines, hrest⟩ := exists_lines text
  rw [hturns.cut_eq hlines hrest, cut_encode hlines hrest]
  refine ⟨fun i => ?_, (rewritten?_encode rest).symm⟩
  rw [List.getElem?_map, List.getElem?_map]
  cases lines[i]? with
  | none => rfl
  | some line => exact (rewritten?_encode line).symm

/-- A run over reads that bring a text and do not fail ends without a fault. Whatever the parts in which the text is
read and the output is written, there are as many newlines in the output as in the text, each line of the output is the
rewritten line of the same number and keeps its carriage return, and so with the rest behind the last newline. Where
two texts agree in a line, their outputs agree in that line. -/
theorem lines_of_output :
    (∀ text arrivals, delivered arrivals = encode text → failure? arrivals = none →
      ∃ output, outcome arrivals [] none = ⟨output, 1, none⟩) ∧
    ∀ text output, Turns (encode text) output →
      output.count newline = (encode text).count newline ∧
      (∃ (lines : List Text) (rest : Text), cut (encode text) = ⟨lines.map encode, encode rest⟩ ∧
        cut output = ⟨lines.map fun line => encode (Line.rewrite line), encode (Line.rewrite rest)⟩ ∧
        ∀ line ∈ lines, ['\r', '\n'] <:+ line → ['\r', '\n'] <:+ Line.rewrite line) ∧
      ∀ text' output', Turns (encode text') output' →
        (∀ i : Nat, (cut (encode text)).lines[i]? = (cut (encode text')).lines[i]? →
          (cut output).lines[i]? = (cut output').lines[i]?) ∧
        ((cut (encode text)).rest = (cut (encode text')).rest → (cut output).rest = (cut output').rest) := by
  refine ⟨fun text arrivals => outcome_of_text, fun text output hturns => ⟨?_, ?_, ?_⟩⟩
  · obtain ⟨lines, rest, rfl, hlines, hrest⟩ := exists_lines text
    rw [count_newline, count_newline, hturns.cut_eq hlines hrest, cut_encode hlines hrest, List.length_map,
      List.length_map]
  · obtain ⟨lines, rest, rfl, hlines, hrest⟩ := exists_lines text
    exact ⟨lines, rest, cut_encode hlines hrest, hturns.cut_eq hlines hrest, fun _ _ => Line.crlf_suffix_rewrite⟩
  · intro text' output' hturns'
    obtain ⟨hlines, hrest⟩ := hturns.rewritten?_lines
    obtain ⟨hlines', hrest'⟩ := hturns'.rewritten?_lines
    refine ⟨fun i hsame => ?_, fun hsame => ?_⟩
    · rw [hlines, hlines', hsame]
    · apply Option.some.inj
      rw [hrest, hrest', hsame]

/-- Two texts that differ in their second line: a keyword before a line end of two characters, an empty keyword, and a
keyword in what stands behind the last newline. -/
theorem lines_of_output_of_changed_line :
    let text : Text := ['\x27', 'ß', '\x27', '\r', '\n', 'a', '\n', '\x27', 'z', '\x27']
    let text' : Text := ['\x27', 'ß', '\x27', '\r', '\n', '\x27', '\x27', '\n', '\x27', 'z', '\x27']
    let output : Bytes := encode ['[', 'S', 's', ']', '[', 'S', 's', ']', '\r', '\n', 'a', '\n', '[', 'Z', 'z', ']']
    let output' : Bytes := encode ['[', 'S', 's', ']', '[', 'S', 's', ']', '\r', '\n', '\n', '[', 'Z', 'z', ']']
    (∃ written, outcome [.chunk (encode text)] [] none = ⟨written, 1, none⟩) ∧
    (Turns (encode text) output ∧ Turns (encode text') output') ∧
    output.count newline = (encode text).count newline ∧
    (∃ (lines : List Text) (rest : Text), cut (encode text) = ⟨lines.map encode, encode rest⟩ ∧
      cut output = ⟨lines.map fun line => encode (Line.rewrite line), encode (Line.rewrite rest)⟩ ∧
      ∀ line ∈ lines, ['\r', '\n'] <:+ line → ['\r', '\n'] <:+ Line.rewrite line) ∧
    (cut output).lines[0]? = (cut output').lines[0]? ∧ (cut output).rest = (cut output').rest := by
  intro text text' output output'
  have hturns : Turns (encode text) output :=
    ⟨[.chunk [0x27, 0xC3], .chunk ((encode text).drop 2)], [.accept 1, .accept 9], by decide, by decide,
      by decide +kernel⟩
  have hturns' : Turns (encode text') output' := ⟨[.chunk (encode text')], [], by decide, by decide, by decide +kernel⟩
  obtain ⟨hends, hlines⟩ := lines_of_output
  obtain ⟨hcount, hcut, hagree⟩ := hlines text output hturns
  obtain ⟨hline, hrest⟩ := hagree text' output' hturns'
  exact ⟨hends text _ (by decide) rfl, ⟨hturns, hturns'⟩, hcount, hcut, hline 0 (by decide), hrest (by decide)⟩

end AnyCase.Stream
