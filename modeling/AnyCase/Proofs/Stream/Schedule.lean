import AnyCase.Proofs.Stream.Scripted

/-!
# Writing along a script

The low-level writes of a run, one after the other. The `n`-th answer of the script meets the run at a `place`
in the bytes that it means to write; what is offered there is the rest of the piece that the place lies in, so
the pieces and the answers before it say everything about the `n`-th write (`callAt`). A step of the device
takes the first answer away and bytes off the first piece (`offerAll_step`), and the places move along with it
(`place_succ`); from there `offerAll_follows` goes by induction.
-/

namespace AnyCase.Stream

open ScriptedSink

/-- The number of bytes from a place in a sequence of pieces to the end of the piece that it lies in. Empty
pieces have no place in them. -/
def room : List Bytes → Nat → Nat
  | [], _ => 0
  | piece :: pieces, n =>
    if n < piece.length then piece.length - n else room pieces (n - piece.length)

/-- How many of the bytes that are offered an answer takes. When no answer is left, all are taken. -/
def taken (offered : Nat) : Option WriteAnswer → Nat
  | some (.accept limit) => min limit offered
  | some (.fault _) => 0
  | none => offered

/-- How many bytes of the pieces the device has taken when it gives the `n`-th answer: the sum of what the
answers before it took. -/
def place (pieces : List Bytes) (answers : List WriteAnswer) : Nat → Nat
  | 0 => 0
  | n + 1 =>
    place pieces answers n + taken (room pieces (place pieces answers n)) answers[n]?

/-- The low-level write to which the device gives the `n`-th answer. It offers what is left of one piece. -/
def callAt (pieces : List Bytes) (answers : List WriteAnswer) (n : Nat) : WriteCall :=
  let left := room pieces (place pieces answers n)
  ⟨(pieces.flatten.drop (place pieces answers n)).take left, taken left answers[n]?⟩

/-- The fault that an answer ends a run with, if it does. -/
def refusal? : WriteAnswer → Option Fault
  | .accept 0 => some .nothingAccepted
  | .accept (_ + 1) => none
  | .fault f => if f.isInterruption then none else some f

/-- The fault that the `n`-th answer ends a run with, if it does. -/
def refusalAt (answers : List WriteAnswer) (n : Nat) : Option Fault :=
  answers[n]?.bind refusal?

/-- What offering pieces came to, told by the places of the answers: which writes there were, which answers
are left, and that the writes ended with the last byte or with the first refusal. -/
structure Follows (pieces : List Bytes) (answers : List WriteAnswer) (o : Offered) : Prop where
  calls : o.calls = (List.range o.calls.length).map (callAt pieces answers)
  remaining : o.remaining = answers.drop o.calls.length
  place_lt : ∀ n < o.calls.length, place pieces answers n < pieces.flatten.length
  ending :
    (o.fault = none ∧ (∀ n < o.calls.length, refusalAt answers n = none) ∧
      place pieces answers o.calls.length = pieces.flatten.length) ∨
    ∃ n f, o.calls.length = n + 1 ∧ (∀ m < n, refusalAt answers m = none) ∧
      refusalAt answers n = some f ∧ o.fault = some f

/-! ### Places -/

theorem taken_le (offered : Nat) (answer : Option WriteAnswer) : taken offered answer ≤ offered := by
  rcases answer with _ | ⟨limit⟩ | f
  · exact Nat.le_refl offered
  · exact Nat.min_le_right limit offered
  · exact Nat.zero_le offered

theorem room_pos {pieces : List Bytes} {n : Nat} (hn : n < pieces.flatten.length) : 0 < room pieces n := by
  induction pieces generalizing n with
  | nil => simp at hn
  | cons piece pieces ih =>
    rw [room]
    split
    · omega
    · apply ih
      rw [List.flatten_cons, List.length_append] at hn
      omega

@[simp] theorem room_nil_cons (pieces : List Bytes) (n : Nat) : room ([] :: pieces) n = room pieces n := by
  simp [room]

theorem room_add (piece : Bytes) (pieces : List Bytes) {t : Nat} (ht : t ≤ piece.length) (n : Nat) :
    room (piece :: pieces) (t + n) = room (piece.drop t :: pieces) n := by
  rw [room, room, List.length_drop]
  by_cases hn : t + n < piece.length
  · rw [if_pos hn, if_pos (by omega)]
    omega
  · rw [if_neg hn, if_neg (by omega)]
    congr 1
    omega

@[simp] theorem place_nil_cons (pieces : List Bytes) (answers : List WriteAnswer) (n : Nat) :
    place ([] :: pieces) answers n = place pieces answers n := by
  induction n with
  | zero => rfl
  | succ n ih => rw [place, place, ih, room_nil_cons]

theorem callAt_nil_cons (pieces : List Bytes) (answers : List WriteAnswer) :
    callAt ([] :: pieces) answers = callAt pieces answers := by
  funext n
  simp [callAt]

variable {piece : Bytes} {pieces : List Bytes} {answers : List WriteAnswer}

theorem room_zero (hpiece : piece ≠ []) (pieces : List Bytes) :
    room (piece :: pieces) 0 = piece.length := by
  rw [room, if_pos (List.length_pos_iff.mpr hpiece), Nat.sub_zero]

/-- Behind the first answer the places are those of what is left of the pieces and the answers. -/
theorem place_succ (hpiece : piece ≠ []) (pieces : List Bytes) (answers : List WriteAnswer) (n : Nat) :
    place (piece :: pieces) answers (n + 1) =
      taken piece.length answers[0]? +
        place (piece.drop (taken piece.length answers[0]?) :: pieces) answers.tail n := by
  induction n with
  | zero => simp [place, room_zero hpiece]
  | succ n ih =>
    rw [place, ih, room_add _ _ (taken_le _ _), place, List.getElem?_tail, Nat.add_assoc]

theorem callAt_zero (hpiece : piece ≠ []) (pieces : List Bytes) (answers : List WriteAnswer) :
    callAt (piece :: pieces) answers 0 = ⟨piece, taken piece.length answers[0]?⟩ := by
  simp [callAt, place, room_zero hpiece]

theorem callAt_succ (hpiece : piece ≠ []) (pieces : List Bytes) (answers : List WriteAnswer) (n : Nat) :
    callAt (piece :: pieces) answers (n + 1) =
      callAt (piece.drop (taken piece.length answers[0]?) :: pieces) answers.tail n := by
  have ht := taken_le piece.length answers[0]?
  rw [callAt, callAt, place_succ hpiece, room_add _ _ ht, List.getElem?_tail, ← List.drop_drop,
    List.flatten_cons, List.drop_append_of_le_length ht, List.flatten_cons]

theorem refusalAt_succ (answers : List WriteAnswer) (n : Nat) :
    refusalAt answers (n + 1) = refusalAt answers.tail n := by
  rw [refusalAt, refusalAt, List.getElem?_tail]

/-! ### Steps of the device -/

@[simp] theorem offerAll_nil_cons (answers : List WriteAnswer) (pieces : List Bytes) :
    offerAll answers ([] :: pieces) = offerAll answers pieces := by
  simp [offerAll, offer]

/-- A low-level write that does not end the run takes the first answer, and some bytes off those offered. -/
theorem offer_step (hpiece : piece ≠ []) (hgoes : refusalAt answers 0 = none) :
    offer answers piece =
      (offer answers.tail (piece.drop (taken piece.length answers[0]?))).cons
        ⟨piece, taken piece.length answers[0]?⟩ := by
  obtain ⟨b, bytes, rfl⟩ := List.exists_cons_of_ne_nil hpiece
  cases answers with
  | nil => simp [offer, taken, Offered.cons]
  | cons answer answers =>
    cases answer with
    | accept limit =>
      cases limit with
      | zero => simp [refusalAt, refusal?] at hgoes
      | succ limit =>
        have hdrop : (b :: bytes).drop (min (limit + 1) (b :: bytes).length) =
            (b :: bytes).drop (limit + 1) := by
          rw [Nat.min_def]
          split
          · rfl
          · rw [List.drop_length, List.drop_eq_nil_of_le (by omega)]
        simp only [List.tail_cons, List.getElem?_cons_zero, taken, hdrop]
        rw [offer]
        exact List.cons_ne_nil b bytes
    | fault f =>
      have hf : f.isInterruption = true := by simpa [refusalAt, refusal?] using hgoes
      simp only [List.tail_cons, List.getElem?_cons_zero, taken, List.drop_zero]
      rw [offer, if_pos hf]
      exact List.cons_ne_nil b bytes

/-- An answer that refuses ends the run, and is the last one that is used. -/
theorem offer_refused {f : Fault} (hpiece : piece ≠ []) (hrefused : refusalAt answers 0 = some f) :
    offer answers piece = ⟨[⟨piece, taken piece.length answers[0]?⟩], answers.tail, some f⟩ := by
  obtain ⟨b, bytes, rfl⟩ := List.exists_cons_of_ne_nil hpiece
  cases answers with
  | nil => cases hrefused
  | cons answer answers =>
    cases answer with
    | accept limit =>
      cases limit with
      | zero =>
        obtain rfl : Fault.nothingAccepted = f := Option.some.inj hrefused
        simp [offer, taken]
      | succ limit => cases hrefused
    | fault f' =>
      by_cases hf : f'.isInterruption = true
      · simp [refusalAt, refusal?, hf] at hrefused
      · obtain rfl : f' = f := by simpa [refusalAt, refusal?, hf] using hrefused
        simp [offer, taken, hf]

theorem offerAll_step (hpiece : piece ≠ []) (hgoes : refusalAt answers 0 = none) (pieces : List Bytes) :
    offerAll answers (piece :: pieces) =
      (offerAll answers.tail (piece.drop (taken piece.length answers[0]?) :: pieces)).cons
        ⟨piece, taken piece.length answers[0]?⟩ := by
  rw [offerAll, offer_step hpiece hgoes, offerAll]
  cases hlater : (offer answers.tail (piece.drop (taken piece.length answers[0]?))).fault <;>
    simp [Offered.cons, hlater]

theorem offerAll_refused {f : Fault} (hpiece : piece ≠ []) (hrefused : refusalAt answers 0 = some f)
    (pieces : List Bytes) :
    offerAll answers (piece :: pieces) =
      ⟨[⟨piece, taken piece.length answers[0]?⟩], answers.tail, some f⟩ := by
  rw [offerAll, offer_refused hpiece hrefused]

/-! ### What offering follows -/

namespace Follows

theorem nil (answers : List WriteAnswer) : Follows [] answers ⟨[], answers, none⟩ where
  calls := rfl
  remaining := rfl
  place_lt := fun _ h => absurd h (Nat.not_lt_zero _)
  ending := .inl ⟨rfl, fun _ h => absurd h (Nat.not_lt_zero _), rfl⟩

theorem nil_cons {o : Offered} (h : Follows pieces answers o) : Follows ([] :: pieces) answers o where
  calls := by rw [callAt_nil_cons]; exact h.calls
  remaining := h.remaining
  place_lt := by simpa using h.place_lt
  ending := by simpa using h.ending

/-- What follows the pieces and answers that are left behind a low-level write follows the whole of them, with
that write in front. -/
theorem step {o : Offered} (hpiece : piece ≠ []) (hgoes : refusalAt answers 0 = none)
    (h : Follows (piece.drop (taken piece.length answers[0]?) :: pieces) answers.tail o) :
    Follows (piece :: pieces) answers (o.cons ⟨piece, taken piece.length answers[0]?⟩) := by
  have hflatten : (piece :: pieces).flatten.length =
      taken piece.length answers[0]? +
        (piece.drop (taken piece.length answers[0]?) :: pieces).flatten.length := by
    have := taken_le piece.length answers[0]?
    simp only [List.flatten_cons, List.length_append, List.length_drop]
    omega
  have hquiet : ∀ {n}, (∀ m < n, refusalAt answers.tail m = none) →
      ∀ m < n + 1, refusalAt answers m = none := by
    intro n hquiet m hm
    cases m with
    | zero => exact hgoes
    | succ m => rw [refusalAt_succ]; exact hquiet m (by omega)
  refine ⟨?_, ?_, ?_, ?_⟩
  · rw [Offered.cons, List.length_cons, List.range_succ_eq_map, List.map_cons, List.map_map,
      callAt_zero hpiece, show callAt (piece :: pieces) answers ∘ Nat.succ = _ from
        funext (callAt_succ hpiece pieces answers), ← h.calls]
  · rw [Offered.cons, List.length_cons, ← List.drop_tail]
    exact h.remaining
  · intro n hn
    cases n with
    | zero => exact List.length_pos_iff.mpr (by simp [hpiece])
    | succ n =>
      rw [place_succ hpiece, hflatten]
      exact Nat.add_lt_add_left (h.place_lt n (Nat.lt_of_succ_lt_succ hn)) _
  · rcases h.ending with ⟨hfault, hnone, hplace⟩ | ⟨n, f, hn, hnone, hrefused, hfault⟩
    · refine .inl ⟨hfault, hquiet hnone, ?_⟩
      rw [Offered.cons, List.length_cons, place_succ hpiece, hplace, hflatten]
    · refine .inr ⟨n + 1, f, ?_, hquiet hnone, ?_, hfault⟩
      · rw [Offered.cons, List.length_cons, hn]
      · rw [refusalAt_succ, hrefused]

theorem refused {f : Fault} (hpiece : piece ≠ []) (hrefused : refusalAt answers 0 = some f)
    (pieces : List Bytes) :
    Follows (piece :: pieces) answers
      ⟨[⟨piece, taken piece.length answers[0]?⟩], answers.tail, some f⟩ where
  calls := by simp [callAt_zero hpiece]
  remaining := by simp
  place_lt := by
    intro n hn
    obtain rfl : n = 0 := by simpa using hn
    exact List.length_pos_iff.mpr (by simp [hpiece])
  ending := .inr ⟨0, f, rfl, fun _ h => absurd h (Nat.not_lt_zero _), hrefused, rfl⟩

end Follows

/-- Offering pieces follows the places of the answers. -/
theorem offerAll_follows (answers : List WriteAnswer) (pieces : List Bytes) :
    Follows pieces answers (offerAll answers pieces) := by
  induction pieces generalizing answers with
  | nil => exact .nil answers
  | cons piece pieces hpieces =>
    induction answers generalizing piece with
    | nil =>
      by_cases hpiece : piece = []
      · subst hpiece
        rw [offerAll_nil_cons]
        exact (hpieces []).nil_cons
      · rw [offerAll_step hpiece rfl]
        apply Follows.step hpiece rfl
        simpa [taken] using (hpieces []).nil_cons
    | cons answer answers hanswers =>
      by_cases hpiece : piece = []
      · subst hpiece
        rw [offerAll_nil_cons]
        exact (hpieces _).nil_cons
      · cases hgoes : refusalAt (answer :: answers) 0 with
        | none =>
          rw [offerAll_step hpiece hgoes]
          exact .step hpiece hgoes (hanswers _)
        | some f =>
          rw [offerAll_refused hpiece hgoes]
          exact .refused hpiece hgoes pieces

/-! ### What the run comes to -/

/-- The first writes bring the bytes up to the place that they reach. -/
theorem flatMap_accepted_callAt (pieces : List Bytes) (answers : List WriteAnswer) (n : Nat) :
    ((List.range n).map (callAt pieces answers)).flatMap WriteCall.accepted =
      pieces.flatten.take (place pieces answers n) := by
  induction n with
  | zero => simp [place]
  | succ n ih =>
    have ht := taken_le (room pieces (place pieces answers n)) answers[n]?
    rw [List.range_succ, List.map_append, List.flatMap_append, ih, place, List.take_add]
    simp only [List.map_singleton, List.flatMap_singleton, WriteCall.accepted, callAt, List.take_take,
      Nat.min_eq_left ht]

/-- A device that takes all pieces has taken all their bytes. -/
theorem accepted_offerAll_of_taken {pieces : List Bytes} {answers : List WriteAnswer}
    (htaken : (offerAll answers pieces).fault = none) :
    (offerAll answers pieces).calls.flatMap WriteCall.accepted = pieces.flatten := by
  obtain ⟨hcalls, -, -, ⟨-, -, hall⟩ | ⟨n, f, -, -, -, hfault⟩⟩ := offerAll_follows answers pieces
  · rw [hcalls, flatMap_accepted_callAt, hall, List.take_length]
  · rw [htaken] at hfault
    contradiction

/-- Whatever the device answers, what it took is the beginning of what the run means to write. -/
theorem output_prefix_pieces (arrivals : List Arrival) (answers : List WriteAnswer) (flushFault : Option Fault) :
    (outcome arrivals answers flushFault).output <+: (course arrivals).pieces.flatten := by
  have hsink := (sink_play arrivals answers flushFault).1
  have hcalls := (offerAll_follows answers (course arrivals).pieces).calls
  change (play arrivals answers flushFault).1.calls.reverse.flatMap WriteCall.accepted <+: _
  rw [hsink, hcalls, flatMap_accepted_callAt]
  exact List.take_prefix _ _

theorem callAt_offered_ne_nil {n : Nat} (hn : place pieces answers n < pieces.flatten.length) :
    (callAt pieces answers n).offered ≠ [] := by
  have hroom := room_pos hn
  rw [← List.length_pos_iff]
  simp only [callAt, List.length_take, List.length_drop]
  omega

/-- An answer that refuses takes nothing. -/
theorem place_succ_of_refused {n : Nat} {f : Fault} (hrefused : refusalAt answers n = some f) :
    place pieces answers (n + 1) = place pieces answers n := by
  rw [place]
  obtain ⟨answer, hanswer, hrefusal⟩ := Option.bind_eq_some_iff.mp hrefused
  rw [hanswer]
  cases answer with
  | accept limit =>
    cases limit with
    | zero => simp [taken]
    | succ limit => cases hrefusal
  | fault f => rfl

/-- A run against any device, told by the run of the same reads against a device that takes everything and
has the same fault for the flush. That run writes the pieces, the empty ones without a write. Here each answer
is used by one low-level write, which offers what is left of the piece at hand. If no answer that is used
refuses, all the bytes are taken, and what is seen is what is seen of the other run. The first that refuses is
the last one used: its fault ends the run without a flush, and the output reaches to the place that the answers
before it reached. -/
theorem outcome_along_script (arrivals : List Arrival) (answers : List WriteAnswer)
    (flushFault : Option Fault) :
    let pieces := (course arrivals).pieces
    let bytes := pieces.flatten
    let sink := (play arrivals answers flushFault).1
    (play arrivals [] flushFault).1.calls.reverse =
        (pieces.filter (· ≠ [])).map (fun piece => ⟨piece, piece.length⟩) ∧
      ∃ used, sink.answers = answers.drop used ∧
        sink.calls.reverse = (List.range used).map (callAt pieces answers) ∧
        (∀ n < used, place pieces answers n < bytes.length ∧ (callAt pieces answers n).offered ≠ []) ∧
        (((∀ n < used, refusalAt answers n = none) ∧ place pieces answers used = bytes.length ∧
            outcome arrivals answers flushFault = outcome arrivals [] flushFault ∧
            (outcome arrivals [] flushFault).output = bytes) ∨
          ∃ n f, used = n + 1 ∧ (∀ m < n, refusalAt answers m = none) ∧ refusalAt answers n = some f ∧
            outcome arrivals answers flushFault = ⟨bytes.take (place pieces answers n), 0, some f⟩) := by
  intro pieces bytes sink
  obtain ⟨hcalls, hremaining, hplace, hending⟩ := offerAll_follows answers pieces
  obtain ⟨hsinkCalls, hsinkAnswers⟩ := sink_play arrivals answers flushFault
  have hwilling := (sink_play arrivals [] flushFault).1
  rw [offerAll_nil] at hwilling
  have houtput : (offerAll answers pieces).calls.flatMap WriteCall.accepted =
      bytes.take (place pieces answers (offerAll answers pieces).calls.length) := by
    rw [← flatMap_accepted_callAt, ← hcalls]
  refine ⟨hwilling, (offerAll answers pieces).calls.length, hsinkAnswers.trans hremaining,
    hsinkCalls.trans hcalls, fun n hn => ⟨hplace n hn, callAt_offered_ne_nil (hplace n hn)⟩, ?_⟩
  rcases hending with ⟨htaken, hnone, hall⟩ | ⟨n, f, hn, hnone, hrefused, hfault⟩
  · refine .inl ⟨hnone, hall, ?_, ?_⟩
    · rw [outcome_of_taken htaken, outcome_nil, houtput, hall, List.take_length]
    · rw [outcome_nil]
      cases (course arrivals).fault <;> rfl
  · refine .inr ⟨n, f, hn, hnone, hrefused, ?_⟩
    rw [outcome_of_refused hfault, houtput, hn, place_succ_of_refused hrefused]

end AnyCase.Stream
