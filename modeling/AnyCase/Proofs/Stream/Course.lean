import AnyCase.Proofs.Stream.Cut
import AnyCase.Proofs.Text.Utf8

/-!
# What a run writes

The reads decide what a run sends to its sink and how it means to end; the sink only decides how far it
comes. `course` computes the former from the bytes that arrive before the first failing read and from that
failure alone, and `rewriteAll_eq_run` says for every sink that the run is this course and nothing else.
-/

namespace AnyCase.Stream

/-- The fault that an arrival ends the run with, if it does. -/
def Arrival.failure? : Arrival → Option Fault
  | .chunk _ => none
  | .fault f => if f.isInterruption then none else some f

def Arrival.bytes : Arrival → Bytes
  | .chunk bytes => bytes
  | .fault _ => []

/-- The first failing read. -/
def failure? (arrivals : List Arrival) : Option Fault :=
  arrivals.findSome? Arrival.failure?

/-- The bytes that arrive before the first failing read. -/
def delivered (arrivals : List Arrival) : Bytes :=
  (arrivals.takeWhile (·.failure?.isNone)).flatMap Arrival.bytes

/-- A line as it is written, if it is well-formed. -/
def rewritten? (line : Bytes) : Option Bytes :=
  (Utf8.decode? line).map fun text => Utf8.encode (Line.rewrite text)

/-- The pieces that a run writes, and the fault that keeps it from the flush behind them. -/
structure Course where
  pieces : List Bytes
  fault : Option Fault
deriving DecidableEq, Repr

/-- Sends lines ahead of a course. A line that is not well-formed ends it. -/
def Course.sending (later : Course) : List Bytes → Course
  | [] => later
  | line :: lines =>
    match rewritten? line with
    | some piece => ⟨piece :: (later.sending lines).pieces, (later.sending lines).fault⟩
    | none => ⟨[], some .illFormedLine⟩

/-- The course behind the last newline: a failing read loses the rest, the end of the reads sends it. -/
def lastCourse (failure : Option Fault) (rest : Bytes) : Course :=
  match failure with
  | some f => ⟨[], some f⟩
  | none => (Course.mk [] none).sending (if rest.isEmpty then [] else [rest])

def course (arrivals : List Arrival) : Course :=
  let c := cut (delivered arrivals)
  (lastCourse (failure? arrivals) c.rest).sending c.lines

variable {σ : Type} [Sink σ]

/-- Runs a course against a sink. -/
def Course.run (c : Course) : EStateM Fault σ Unit := do
  forM c.pieces Sink.writeAll
  match c.fault with
  | some f => throw f
  | none => Sink.flush

/-! ### Sending lines -/

theorem Course.sending_append (later : Course) (lines lines' : List Bytes) :
    later.sending (lines ++ lines') = (later.sending lines').sending lines := by
  induction lines with
  | nil => rfl
  | cons line lines ih => rw [List.cons_append, Course.sending, Course.sending, ih]

/-- Lines that are encodings of texts all become pieces. -/
theorem Course.sending_map_encode (later : Course) (texts : List Text) :
    later.sending (texts.map Utf8.encode) =
      ⟨texts.map (fun text => Utf8.encode (Line.rewrite text)) ++ later.pieces, later.fault⟩ := by
  induction texts with
  | nil => rfl
  | cons text texts ih =>
    rw [List.map_cons, Course.sending, rewritten?, Utf8.decode?_encode, ih]
    rfl

theorem Course.sending_of_illFormed (later : Course) {line : Bytes} (hline : ∀ text, Utf8.encode text ≠ line)
    (lines : List Bytes) : later.sending (line :: lines) = ⟨[], some .illFormedLine⟩ := by
  rw [Course.sending, rewritten?, Utf8.decode?_eq_none_iff.mpr hline]
  rfl

theorem flatten_map_encode_rewrite (texts : List Text) :
    (texts.map fun text => Utf8.encode (Line.rewrite text)).flatten =
      Utf8.encode (texts.flatMap Line.rewrite) := by
  rw [List.flatMap_def, Utf8.encode_flatten, List.map_map]
  rfl

theorem lastCourse_of_illFormed {rest : Bytes} (hrest : ∀ text, Utf8.encode text ≠ rest) :
    lastCourse none rest = ⟨[], some .illFormedLine⟩ := by
  cases rest with
  | nil => exact absurd Utf8.encode_nil (hrest [])
  | cons b rest => exact Course.sending_of_illFormed _ hrest []

/-- Without a failing read a well-formed rest is written like a line; where there is no rest, there is nothing to
write. -/
theorem lastCourse_encode (last : Text) :
    (lastCourse none (Utf8.encode last)).fault = none ∧
      (lastCourse none (Utf8.encode last)).pieces.flatten = Utf8.encode (Line.rewrite last) := by
  by_cases hlast : Utf8.encode last = []
  · obtain rfl := Utf8.encode_eq_nil_iff.mp hlast
    exact ⟨rfl, rfl⟩
  · have hcourse : lastCourse none (Utf8.encode last) = ⟨[Utf8.encode (Line.rewrite last)], none⟩ := by
      rw [lastCourse, if_neg (by simpa using hlast)]
      exact Course.sending_map_encode ⟨[], none⟩ [last]
    rw [hcourse]
    exact ⟨rfl, List.flatten_singleton⟩

/-- Of a list of lines, `texts` are those up to the first that is not the encoding of a text; `later` are that
one and all behind it. -/
structure Legible (lines : List Bytes) (texts : List Text) (later : List Bytes) : Prop where
  eq : lines = texts.map Utf8.encode ++ later
  stops : ∀ line ∈ later.head?, ∀ text, Utf8.encode text ≠ line

theorem exists_legible (lines : List Bytes) : ∃ texts later, Legible lines texts later := by
  induction lines with
  | nil => exact ⟨[], [], rfl, by simp⟩
  | cons line lines ih =>
    by_cases hline : ∃ text, Utf8.encode text = line
    · obtain ⟨text, rfl⟩ := hline
      obtain ⟨texts, later, rfl, hstops⟩ := ih
      exact ⟨text :: texts, later, rfl, hstops⟩
    · refine ⟨[], line :: lines, rfl, ?_⟩
      intro first hfirst text htext
      obtain rfl := Option.some.inj hfirst
      exact hline ⟨text, htext⟩

/-- Where no read fails, a run writes the legible lines, and ends with a fault if there are others. -/
theorem course_of_legible {arrivals : List Arrival} {texts : List Text} {later : List Bytes}
    (hnone : failure? arrivals = none) (hlegible : Legible (lines (delivered arrivals)) texts later) :
    course arrivals =
      ⟨texts.map (fun text => Utf8.encode (Line.rewrite text)),
        if later = [] then none else some .illFormedLine⟩ := by
  have hcourse : course arrivals = (Course.mk [] none).sending (lines (delivered arrivals)) := by
    rw [course, hnone, lastCourse, lines, Course.sending_append]
  rw [hcourse, hlegible.eq, Course.sending_append, Course.sending_map_encode]
  cases later with
  | nil => simp [Course.sending]
  | cons line later =>
    rw [Course.sending_of_illFormed _ (hlegible.stops line rfl), List.append_nil,
      if_neg (List.cons_ne_nil _ _)]

/-! ### Reading -/

theorem delivered_chunk_cons (bytes : Bytes) (arrivals : List Arrival) :
    delivered (.chunk bytes :: arrivals) = bytes ++ delivered arrivals := by
  simp [delivered, Arrival.failure?, Arrival.bytes]

theorem failure?_chunk_cons (bytes : Bytes) (arrivals : List Arrival) :
    failure? (.chunk bytes :: arrivals) = failure? arrivals := rfl

theorem delivered_interruption_cons {f : Fault} (hf : f.isInterruption = true) (arrivals : List Arrival) :
    delivered (.fault f :: arrivals) = delivered arrivals := by
  simp [delivered, Arrival.failure?, Arrival.bytes, hf]

theorem failure?_interruption_cons {f : Fault} (hf : f.isInterruption = true) (arrivals : List Arrival) :
    failure? (.fault f :: arrivals) = failure? arrivals := by
  simp [failure?, Arrival.failure?, hf]

theorem delivered_failure_cons {f : Fault} (hf : f.isInterruption = false) (arrivals : List Arrival) :
    delivered (.fault f :: arrivals) = [] := by
  simp [delivered, Arrival.failure?, hf]

theorem failure?_failure_cons {f : Fault} (hf : f.isInterruption = false) (arrivals : List Arrival) :
    failure? (.fault f :: arrivals) = some f := by
  simp [failure?, Arrival.failure?, hf]

/-- Taking bytes sends the lines that they complete and holds the rest. -/
theorem foldlM_takeByte (held bytes : Bytes) :
    (bytes.foldlM takeByte held : EStateM Fault σ Bytes) = do
      forM ((cut bytes).prepend held.reverse).lines sendLine
      return ((cut bytes).prepend held.reverse).rest.reverse := by
  induction bytes generalizing held with
  | nil => simp [cut, Cut.prepend]
  | cons b bytes ih =>
    rw [List.foldlM_cons]
    by_cases hb : b = newline
    · subst hb
      simp [takeByte, ih]
    · have htake : (takeByte held b : EStateM Fault σ Bytes) = pure (b :: held) := by
        rw [takeByte, if_neg hb]
      rw [htake, pure_bind, ih, cut_cons_of_ne hb, Cut.prepend_prepend, List.reverse_cons]

/-- Taking arrivals sends the lines of what they deliver, however it is cut into chunks, and then fails with
the first failing read or holds the rest. -/
theorem foldlM_takeArrival (held : Bytes) (arrivals : List Arrival) :
    (arrivals.foldlM takeArrival held : EStateM Fault σ Bytes) = do
      forM ((cut (delivered arrivals)).prepend held.reverse).lines sendLine
      match failure? arrivals with
      | some f => throw f
      | none => return ((cut (delivered arrivals)).prepend held.reverse).rest.reverse := by
  induction arrivals generalizing held with
  | nil => simp [delivered, failure?, cut, Cut.prepend]
  | cons arrival arrivals ih =>
    rw [List.foldlM_cons]
    cases arrival with
    | chunk bytes =>
      simp only [takeArrival, foldlM_takeByte, bind_assoc, pure_bind, ih, List.reverse_reverse,
        failure?_chunk_cons, delivered_chunk_cons, prepend_cut_append held.reverse bytes,
        List.forM_append]
    | fault f =>
      by_cases hf : f.isInterruption = true
      · simp only [takeArrival, hf, if_true, pure_bind, ih, delivered_interruption_cons hf,
          failure?_interruption_cons hf]
      · rw [Bool.not_eq_true] at hf
        simp only [takeArrival, hf, delivered_failure_cons hf, failure?_failure_cons hf]
        rfl

/-! ### The run is its course -/

theorem sendLine_eq (line : Bytes) :
    (sendLine line : EStateM Fault σ Unit) =
      match rewritten? line with
      | some piece => Sink.writeAll piece
      | none => throw .illFormedLine := by
  rw [sendLine, rewritten?]
  cases Utf8.decode? line <;> rfl

theorem Course.run_sending (later : Course) (lines : List Bytes) :
    ((later.sending lines).run : EStateM Fault σ Unit) = (do forM lines sendLine; later.run) := by
  induction lines with
  | nil => simp [Course.sending]
  | cons line lines ih =>
    rw [List.forM_cons, sendLine_eq, Course.sending]
    cases rewritten? line with
    | none => rfl
    | some piece =>
      rw [bind_assoc, ← ih]
      simp only [Course.run, List.forM_cons, bind_assoc]

/-- A run is its course, whatever its sink makes of it. -/
theorem rewriteAll_eq_run (arrivals : List Arrival) :
    (rewriteAll arrivals : EStateM Fault σ Unit) = (course arrivals).run := by
  rw [rewriteAll, foldlM_takeArrival, course, Course.run_sending, bind_assoc, List.reverse_nil,
    Cut.prepend_nil]
  apply bind_congr
  intro
  cases hfailure : failure? arrivals with
  | some f => rfl
  | none =>
    simp only [pure_bind, List.isEmpty_reverse, List.reverse_reverse, lastCourse, Course.run_sending]
    cases (cut (delivered arrivals)).rest <;> simp [Course.run]

/-- Reads that deliver the same bytes before the same failure make the same run with every sink. -/
theorem rewriteAll_congr {arrivals arrivals' : List Arrival}
    (hdelivered : delivered arrivals = delivered arrivals') (hfailure : failure? arrivals = failure? arrivals') :
    (rewriteAll arrivals : EStateM Fault σ Unit) = rewriteAll arrivals' := by
  rw [rewriteAll_eq_run, rewriteAll_eq_run, course, course, hdelivered, hfailure]

end AnyCase.Stream
