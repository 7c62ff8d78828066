import AnyCase.Proofs.Stream.Course

/-!
# Runs against a scripted sink

`play` runs a stream against a sink whose device answers as a list says, and `play_eq` reads the run off its
course: the device is offered the pieces one after the other, and what is left of the course follows only if
all of them were taken.

With a device that takes everything, what is seen is what the reads decided (`outcome_of_willing_device`).
With any device, two streams that deliver the same bytes before the same failure look the same
(`outcome_congr_of_delivered`).
-/

namespace AnyCase.Stream

open ScriptedSink

/-- Runs a stream against a device with these answers: the sink at the end, and the fault, if there is one. -/
def play (arrivals : List Arrival) (answers : List WriteAnswer) (flushFault : Option Fault) :
    ScriptedSink × Option Fault :=
  match (rewriteAll arrivals).run { answers, flushFault } with
  | .ok () sink => (sink, none)
  | .error f sink => (sink, some f)

/-- What is seen of a run: the bytes that the device took, the number of flushes, and the fault at its end. -/
structure Outcome where
  output : Bytes
  flushes : Nat
  fault : Option Fault
deriving DecidableEq, Repr

/-- What is seen of the run of a stream against a device with these answers. -/
def outcome (arrivals : List Arrival) (answers : List WriteAnswer) (flushFault : Option Fault) : Outcome :=
  let (sink, fault) := play arrivals answers flushFault
  ⟨sink.accepted, sink.flushes, fault⟩

/-- Offers pieces one after the other, up to the first that a fault ends. -/
def offerAll (answers : List WriteAnswer) : List Bytes → Offered
  | [] => ⟨[], answers, none⟩
  | piece :: pieces =>
    let first := offer answers piece
    match first.fault with
    | some f => ⟨first.calls, first.remaining, some f⟩
    | none =>
      let later := offerAll first.remaining pieces
      ⟨first.calls ++ later.calls, later.remaining, later.fault⟩

theorem after_after (s : ScriptedSink) (o o' : Offered) :
    (s.after o).after o' = s.after ⟨o.calls ++ o'.calls, o'.remaining, o'.fault⟩ := by
  simp [ScriptedSink.after]

theorem run_writeAll (piece : Bytes) (s : ScriptedSink) :
    (Sink.writeAll piece : EStateM Fault ScriptedSink Unit).run s =
      match (offer s.answers piece).fault with
      | some f => .error f (s.after (offer s.answers piece))
      | none => .ok () (s.after (offer s.answers piece)) := rfl

theorem run_forM_writeAll (pieces : List Bytes) (s : ScriptedSink) :
    (forM pieces Sink.writeAll : EStateM Fault ScriptedSink Unit).run s =
      match (offerAll s.answers pieces).fault with
      | some f => .error f (s.after (offerAll s.answers pieces))
      | none => .ok () (s.after (offerAll s.answers pieces)) := by
  induction pieces generalizing s with
  | nil => rfl
  | cons piece pieces ih =>
    rw [List.forM_cons, EStateM.run_bind, run_writeAll, offerAll]
    cases (offer s.answers piece).fault with
    | some f => rfl
    | none =>
      dsimp only
      rw [ih]
      simp only [after_after]
      rfl

/-- A piece that the device refuses ends the run. -/
theorem play_of_refused {arrivals : List Arrival} {answers : List WriteAnswer} {f : Fault}
    (hrefused : (offerAll answers (course arrivals).pieces).fault = some f) (flushFault : Option Fault) :
    play arrivals answers flushFault =
      (ScriptedSink.after { flushFault } (offerAll answers (course arrivals).pieces), some f) := by
  rw [play, rewriteAll_eq_run, Course.run, EStateM.run_bind, run_forM_writeAll]
  simp only [hrefused]
  rfl

/-- When the device takes all pieces, the run ends as its course does. -/
theorem play_of_taken {arrivals : List Arrival} {answers : List WriteAnswer}
    (htaken : (offerAll answers (course arrivals).pieces).fault = none) (flushFault : Option Fault) :
    play arrivals answers flushFault =
      match (course arrivals).fault with
      | some f => (ScriptedSink.after { flushFault } (offerAll answers (course arrivals).pieces), some f)
      | none =>
        (ScriptedSink.after { flushes := 1 } (offerAll answers (course arrivals).pieces), flushFault) := by
  rw [play, rewriteAll_eq_run, Course.run, EStateM.run_bind, run_forM_writeAll]
  simp only [htaken]
  cases (course arrivals).fault with
  | some f => rfl
  | none => cases flushFault <;> rfl

/-- The low-level writes of a run, and the answers that it leaves, are those of offering its pieces. -/
theorem sink_play (arrivals : List Arrival) (answers : List WriteAnswer) (flushFault : Option Fault) :
    (play arrivals answers flushFault).1.calls.reverse = (offerAll answers (course arrivals).pieces).calls ∧
      (play arrivals answers flushFault).1.answers =
        (offerAll answers (course arrivals).pieces).remaining := by
  cases hfault : (offerAll answers (course arrivals).pieces).fault with
  | some f => simp [play_of_refused hfault, ScriptedSink.after]
  | none =>
    rw [play_of_taken hfault]
    cases (course arrivals).fault <;> simp [ScriptedSink.after]

theorem outcome_of_refused {arrivals : List Arrival} {answers : List WriteAnswer} {f : Fault}
    (hrefused : (offerAll answers (course arrivals).pieces).fault = some f) (flushFault : Option Fault) :
    outcome arrivals answers flushFault =
      ⟨(offerAll answers (course arrivals).pieces).calls.flatMap WriteCall.accepted, 0, some f⟩ := by
  rw [outcome, play_of_refused hrefused]
  simp [accepted, ScriptedSink.after]

theorem outcome_of_taken {arrivals : List Arrival} {answers : List WriteAnswer}
    (htaken : (offerAll answers (course arrivals).pieces).fault = none) (flushFault : Option Fault) :
    outcome arrivals answers flushFault =
      let output := (offerAll answers (course arrivals).pieces).calls.flatMap WriteCall.accepted
      match (course arrivals).fault with
      | some f => ⟨output, 0, some f⟩
      | none => ⟨output, 1, flushFault⟩ := by
  rw [outcome, play_of_taken htaken]
  cases (course arrivals).fault <;> simp [accepted, ScriptedSink.after]

/-! ### A device that takes everything -/

/-- With no answer left, each piece that is not empty is taken in one low-level write. -/
theorem offerAll_nil (pieces : List Bytes) :
    offerAll [] pieces = ⟨(pieces.filter (· ≠ [])).map fun piece => ⟨piece, piece.length⟩, [], none⟩ := by
  induction pieces with
  | nil => rfl
  | cons piece pieces ih => cases piece <;> simp [offerAll, offer, ih]

theorem accepted_offerAll_nil (pieces : List Bytes) :
    (offerAll [] pieces).calls.flatMap WriteCall.accepted = pieces.flatten := by
  rw [offerAll_nil]
  induction pieces with
  | nil => rfl
  | cons piece pieces ih => cases piece <;> simp_all [WriteCall.accepted]

/-- What is seen of a run against a device that takes everything is its course. -/
theorem outcome_nil (arrivals : List Arrival) (flushFault : Option Fault) :
    outcome arrivals [] flushFault =
      match (course arrivals).fault with
      | some f => ⟨(course arrivals).pieces.flatten, 0, some f⟩
      | none => ⟨(course arrivals).pieces.flatten, 1, flushFault⟩ := by
  rw [outcome_of_taken (by rw [offerAll_nil]), accepted_offerAll_nil]

/-- What is seen of a run when nothing hinders the writing. The first line that is not the encoding of a text
ends it, whatever comes behind that line; if there is none, the first failing read does, whatever stands behind
the last newline; otherwise the rest is one more line, and the sink is flushed only if that line is an encoding
too. -/
theorem outcome_of_willing_device (arrivals : List Arrival) :
    let c := cut (delivered arrivals)
    (∀ (i : Nat) (line : Bytes) (texts : List Text), c.lines[i]? = some line →
      (∀ text, Utf8.encode text ≠ line) → c.lines.take i = texts.map Utf8.encode →
      outcome arrivals [] none = ⟨Utf8.encode (texts.flatMap Line.rewrite), 0, some .illFormedLine⟩) ∧
    ∀ texts : List Text, c.lines = texts.map Utf8.encode →
      (∀ f, failure? arrivals = some f →
        outcome arrivals [] none = ⟨Utf8.encode (texts.flatMap Line.rewrite), 0, some f⟩) ∧
      (failure? arrivals = none → (∀ text, Utf8.encode text ≠ c.rest) →
        outcome arrivals [] none = ⟨Utf8.encode (texts.flatMap Line.rewrite), 0, some .illFormedLine⟩) ∧
      ∀ last, failure? arrivals = none → c.rest = Utf8.encode last →
        outcome arrivals [] none = ⟨Utf8.encode ((texts ++ [last]).flatMap Line.rewrite), 1, none⟩ := by
  intro c
  have hcourse : course arrivals = (lastCourse (failure? arrivals) c.rest).sending c.lines := rfl
  rw [outcome_nil]
  refine ⟨fun i line texts hline hill htexts => ?_, fun texts htexts => ⟨fun f hf => ?_, ?_, ?_⟩⟩
  · obtain ⟨hi, hget⟩ := List.getElem?_eq_some_iff.mp hline
    have hlines : c.lines = texts.map Utf8.encode ++ line :: c.lines.drop (i + 1) := by
      rw [← htexts, ← hget, ← List.drop_eq_getElem_cons hi, List.take_append_drop]
    rw [hlines, Course.sending_append, Course.sending_of_illFormed _ hill, Course.sending_map_encode,
      List.append_nil] at hcourse
    simp only [hcourse, flatten_map_encode_rewrite]
  · rw [htexts, hf, lastCourse, Course.sending_map_encode, List.append_nil] at hcourse
    simp only [hcourse, flatten_map_encode_rewrite]
  · intro hnone hill
    rw [htexts, hnone, lastCourse_of_illFormed hill, Course.sending_map_encode, List.append_nil] at hcourse
    simp only [hcourse, flatten_map_encode_rewrite]
  · intro last hnone hlast
    obtain ⟨hfault, hpieces⟩ := lastCourse_encode last
    rw [htexts, hnone, hlast, Course.sending_map_encode] at hcourse
    simp only [hcourse, hfault, List.flatten_append, hpieces, flatten_map_encode_rewrite,
      List.flatMap_append, List.flatMap_singleton, Utf8.encode_append]

/-- What is seen of a run depends on the reads only through the bytes that they deliver and the failure that
ends them, whatever the device answers. -/
theorem outcome_congr_of_delivered {arrivals arrivals' : List Arrival}
    (hdelivered : delivered arrivals = delivered arrivals') (hfailure : failure? arrivals = failure? arrivals')
    (answers : List WriteAnswer) (flushFault : Option Fault) :
    outcome arrivals answers flushFault = outcome arrivals' answers flushFault := by
  rw [outcome, outcome, play, play, rewriteAll_congr hdelivered hfailure]

/-- A keyword with a character cut in two, an interruption, a chunk of nothing and a cut between carriage return
and newline looks like the keyword in one chunk, to a device that takes it in parts and then refuses. -/
theorem outcome_of_torn_keyword :
    let torn : List Arrival :=
      [.chunk [0x27, 0xC3], .fault (.reported .interrupted []), .chunk [], .chunk [0xA9, 0x27, 0x0D],
        .chunk [0x0A, 0x61], .fault (.reported .timedOut ['t']), .chunk [0x62]]
    let whole : List Arrival :=
      [.chunk [0x27, 0xC3, 0xA9, 0x27, 0x0D, 0x0A, 0x61], .fault (.reported .timedOut ['t'])]
    let answers : List WriteAnswer :=
      [.accept 1, .fault (.reported .interrupted []), .accept 4, .fault (.reported .brokenPipe [])]
    delivered torn = delivered whole ∧ failure? torn = failure? whole ∧
      outcome torn answers (some .zeroInPath) = outcome whole answers (some .zeroInPath) :=
  ⟨by decide, by decide, outcome_congr_of_delivered (by decide) (by decide) _ _⟩

end AnyCase.Stream
