import AnyCase.Proofs.Stream.Course

/-!
# What a buffer passes on

A buffer hands bytes on late and in other pieces than it was given. In front of a regular file this leaves no trace
(`run_rewriteAll`). In front of a device without room it only puts off the refusal (`run_rewriteAll_full`).
-/

/-!
## Runs through a buffer

A buffer loses none of the bytes that it was given, doubles none and keeps their order. In front of a regular file the
content and the held bytes together grow by each piece (`Delivers`), whatever the capacity, so that the file ends up
with all that the run sends (`run_rewriteAll`).

Other objects can refuse bytes, but no object becomes one of another kind (`truncate_received`).
-/

namespace AnyCase

namespace BufferedSink

variable {s : BufferedSink} {α β : Type} {content taken bytes bytes' : Bytes}

/-- A piece is held or passed on, in either case behind everything that was held before. -/
theorem writeAll_cases (piece : Bytes) (s : BufferedSink) :
    let write : EStateM Fault BufferedSink Unit := Sink.writeAll piece
    write.run s = (hold piece).run s ∨
      write.run s = (passOn piece).run s ∧ (s.held = [] ∨ piece = []) ∨
      write.run s = (do spill; hold piece : EStateM Fault BufferedSink Unit).run s ∨
      write.run s = (do spill; passOn piece : EStateM Fault BufferedSink Unit).run s := by
  intro write
  have hrun : write.run s =
      (if piece.length < s.capacity - s.held.length then hold piece
      else do
        if s.capacity - s.held.length < piece.length then spill
        if s.capacity ≤ piece.length then passOn piece else hold piece).run s := rfl
  rw [hrun]
  by_cases hspare : piece.length < s.capacity - s.held.length
  · rw [if_pos hspare]
    exact Or.inl rfl
  rw [if_neg hspare]
  by_cases hfull : s.capacity - s.held.length < piece.length
  · simp only [if_pos hfull]
    by_cases hlong : s.capacity ≤ piece.length
    · simp only [if_pos hlong, or_true]
    · simp only [if_neg hlong, true_or, or_true]
  · simp only [if_neg hfull]
    by_cases hlong : s.capacity ≤ piece.length
    · have hnothing : s.held.length = 0 ∨ piece.length = 0 := by omega
      simp only [List.length_eq_zero_iff] at hnothing
      simp only [if_pos hlong]
      exact Or.inr (Or.inl ⟨trivial, hnothing⟩)
    · simp only [if_neg hlong, true_or]

theorem spill_run (s : BufferedSink) :
    spill.run s = (do passOn s.held; modify ({ · with held := [] }) : EStateM Fault BufferedSink Unit).run s := rfl

/-! ### In front of a regular file -/

/-- The object is a regular file, and its content with the held bytes behind it is this. -/
def Carries (s : BufferedSink) (bytes : Bytes) : Prop :=
  ∃ content, s.object = .regular content ∧ content ++ s.held = bytes

theorem close_of_carries (hs : s.Carries bytes) : s.close = .regular bytes := by
  obtain ⟨content, hobject, rfl⟩ := hs
  rw [close, hobject]
  rfl

theorem run_passOn (hobject : s.object = .regular content) (bytes : Bytes) :
    (passOn bytes).run s = .ok () { s with object := .regular (content ++ bytes) } := by
  simp only [EStateM.run, passOn, hobject, FileObject.write]

theorem run_spill (hobject : s.object = .regular content) :
    spill.run s = .ok () { s with object := .regular (content ++ s.held), held := [] } := by
  rw [spill_run, EStateM.run_bind, run_passOn hobject]
  rfl

/-- From every sink in front of a regular file, `m` succeeds and these bytes come behind the others. -/
def Delivers (m : EStateM Fault BufferedSink Unit) (bytes : Bytes) : Prop :=
  ∀ s taken, s.Carries taken → ∃ s', m.run s = .ok () s' ∧ s'.Carries (taken ++ bytes)

theorem delivers_pure : Delivers (pure ()) [] := by
  intro s taken hs
  exact ⟨s, rfl, by rwa [List.append_nil]⟩

theorem Delivers.bind {m m' : EStateM Fault BufferedSink Unit} (hm : Delivers m bytes)
    (hm' : Delivers m' bytes') : Delivers (do m; m') (bytes ++ bytes') := by
  intro s taken hs
  obtain ⟨s₁, hrun, hs₁⟩ := hm s taken hs
  obtain ⟨s₂, hrun', hs₂⟩ := hm' s₁ (taken ++ bytes) hs₁
  refine ⟨s₂, ?_, by rwa [← List.append_assoc]⟩
  rw [EStateM.run_bind, hrun]
  exact hrun'

theorem delivers_spill : Delivers spill [] := by
  rintro s taken ⟨content, hobject, rfl⟩
  exact ⟨_, run_spill hobject, content ++ s.held, rfl, by simp⟩

theorem delivers_hold (bytes : Bytes) : Delivers (hold bytes) bytes := by
  rintro s taken ⟨content, hobject, rfl⟩
  exact ⟨{ s with held := s.held ++ bytes }, rfl, content, hobject, by simp⟩

/-- Passing bytes on keeps the order only if nothing is held, which is why the buffer is spilled before. -/
theorem carries_passOn (hs : s.Carries taken) (hnothing : s.held = [] ∨ bytes = []) :
    ∃ s', (passOn bytes).run s = .ok () s' ∧ s'.Carries (taken ++ bytes) := by
  obtain ⟨content, hobject, rfl⟩ := hs
  refine ⟨_, run_passOn hobject bytes, content ++ bytes, rfl, ?_⟩
  rcases hnothing with hheld | rfl
  · simp [hheld]
  · simp

theorem delivers_writeAll (piece : Bytes) : Delivers (Sink.writeAll piece) piece := by
  intro s taken hs
  rcases writeAll_cases piece s with hrun | ⟨hrun, hnothing⟩ | hrun | hrun <;> rw [hrun]
  · exact delivers_hold piece s taken hs
  · exact carries_passOn hs hnothing
  · exact delivers_spill.bind (delivers_hold piece) s taken hs
  · obtain ⟨content, hobject, rfl⟩ := hs
    rw [EStateM.run_bind, run_spill hobject]
    exact carries_passOn ⟨content ++ s.held, rfl, List.append_nil _⟩ (Or.inl rfl)

theorem delivers_forM_writeAll (pieces : List Bytes) : Delivers (forM pieces Sink.writeAll) pieces.flatten := by
  induction pieces with
  | nil => exact delivers_pure
  | cons piece pieces ih =>
    rw [List.forM_cons, List.flatten_cons]
    exact (delivers_writeAll piece).bind ih

/-- A run into a regular file ends as its course does, and once the sink is given up the file has got all pieces
behind its old content. -/
theorem run_rewriteAll (arrivals : List Stream.Arrival) (old : Bytes) (capacity : Nat) :
    ∃ s, s.close = .regular (old ++ (Stream.course arrivals).pieces.flatten) ∧
      (Stream.rewriteAll arrivals).run (BufferedSink.mk (.regular old) [] capacity) =
        match (Stream.course arrivals).fault with
        | some f => .error f s
        | none => .ok () s := by
  have hstart : (BufferedSink.mk (.regular old) [] capacity).Carries old := ⟨old, rfl, List.append_nil old⟩
  obtain ⟨s₁, hpieces, hs₁⟩ := delivers_forM_writeAll (Stream.course arrivals).pieces _ _ hstart
  rw [Stream.rewriteAll_eq_run, Stream.Course.run, EStateM.run_bind, hpieces]
  cases (Stream.course arrivals).fault with
  | some f => exact ⟨s₁, close_of_carries hs₁, rfl⟩
  | none =>
    obtain ⟨s₂, hflush, hs₂⟩ := delivers_spill s₁ _ hs₁
    rw [List.append_nil] at hs₂
    exact ⟨s₂, close_of_carries hs₂, hflush⟩

/-! ### In front of any object -/

/-- The sink in which a run ends. -/
def final : EStateM.Result Fault BufferedSink α → BufferedSink
  | .ok _ s => s
  | .error _ s => s

/-- However `m` ends, the object differs by its content at most. -/
def KeepsKind (m : EStateM Fault BufferedSink α) : Prop :=
  ∀ s, (final (m.run s)).object.truncate = s.object.truncate

theorem keepsKind_pure (a : α) : KeepsKind (pure a) := fun _ => rfl

theorem keepsKind_throw (f : Fault) : KeepsKind (throw f : EStateM Fault BufferedSink α) := fun _ => rfl

theorem keepsKind_hold (bytes : Bytes) : KeepsKind (hold bytes) := fun _ => rfl

theorem KeepsKind.bind {m : EStateM Fault BufferedSink α} {next : α → EStateM Fault BufferedSink β}
    (hm : KeepsKind m) (hnext : ∀ a, KeepsKind (next a)) : KeepsKind (m >>= next) := by
  intro s
  have hfirst := hm s
  rw [EStateM.run_bind]
  rcases hrun : m.run s with ⟨a, s'⟩ | ⟨f, s'⟩ <;> rw [hrun] at hfirst
  · exact (hnext a s').trans hfirst
  · exact hfirst

theorem keepsKind_passOn (bytes : Bytes) : KeepsKind (passOn bytes) := by
  intro s
  rcases hwrite : s.object.write bytes with f | o
  · simp only [EStateM.run, passOn, hwrite, final]
  · simp only [EStateM.run, passOn, hwrite, final]
    exact FileObject.truncate_write hwrite

theorem keepsKind_spill : KeepsKind spill := by
  intro s
  exact (keepsKind_passOn s.held).bind (fun _ _ => rfl) s

theorem keepsKind_writeAll (piece : Bytes) : KeepsKind (Sink.writeAll piece) := by
  intro s
  rcases writeAll_cases piece s with hrun | ⟨hrun, -⟩ | hrun | hrun <;> rw [hrun]
  · exact keepsKind_hold piece s
  · exact keepsKind_passOn piece s
  · exact keepsKind_spill.bind (fun _ => keepsKind_hold piece) s
  · exact keepsKind_spill.bind (fun _ => keepsKind_passOn piece) s

theorem keepsKind_forM_writeAll (pieces : List Bytes) : KeepsKind (forM pieces Sink.writeAll) := by
  induction pieces with
  | nil => exact keepsKind_pure ()
  | cons piece pieces ih =>
    rw [List.forM_cons]
    exact (keepsKind_writeAll piece).bind fun _ => ih

theorem keepsKind_rewriteAll (arrivals : List Stream.Arrival) : KeepsKind (Stream.rewriteAll arrivals) := by
  rw [Stream.rewriteAll_eq_run, Stream.Course.run]
  refine (keepsKind_forM_writeAll _).bind fun _ => ?_
  cases (Stream.course arrivals).fault with
  | some f => exact keepsKind_throw f
  | none => exact keepsKind_spill

theorem truncate_close (s : BufferedSink) : s.close.truncate = s.object.truncate := by
  rw [close]
  rcases hwrite : s.object.write s.held with f | o
  · rfl
  · exact FileObject.truncate_write hwrite

/-- What an object becomes that the run of these reads is sent to. -/
def received (capacity : Nat) (arrivals : List Stream.Arrival) (o : FileObject) : FileObject :=
  (final ((Stream.rewriteAll arrivals).run (BufferedSink.mk o [] capacity))).close

theorem truncate_received (capacity : Nat) (arrivals : List Stream.Arrival) (o : FileObject) :
    (received capacity arrivals o).truncate = o.truncate :=
  (truncate_close _).trans (keepsKind_rewriteAll arrivals _)

/-!
## Runs into a device without room

In front of a device that takes no byte, a buffer can only hold. Each piece is held behind the others, or it is the one
at which the device is asked and refuses (`Stalls`); the last time it is asked is the flush. So a run gets by without
the device exactly if it has nothing to send, be it of any number of lines and the buffer of any capacity
(`run_rewriteAll_full`).
-/

variable {reads : List Stream.Arrival}

/-- From every sink in front of a full device, `m` comes to hold these bytes behind the others, or fails for want of
room, and then there were bytes to hold. -/
def Stalls (m : EStateM Fault BufferedSink Unit) (bytes : Bytes) : Prop :=
  ∀ s reads, s.object = .full reads → ∃ s', s'.object = .full reads ∧
    (m.run s = .ok () s' ∧ s'.held = s.held ++ bytes ∨
      m.run s = .error (.system .noSpace) s' ∧ s.held ++ bytes ≠ [])

theorem stalls_pure : Stalls (pure ()) [] := by
  intro s reads hs
  exact ⟨s, hs, Or.inl ⟨rfl, (List.append_nil s.held).symm⟩⟩

theorem Stalls.bind {m m' : EStateM Fault BufferedSink Unit} (hm : Stalls m bytes) (hm' : Stalls m' bytes') :
    Stalls (do m; m') (bytes ++ bytes') := by
  intro s reads hs
  obtain ⟨s₁, hs₁, ⟨hrun, hheld⟩ | ⟨hrun, hne⟩⟩ := hm s reads hs
  · obtain ⟨s₂, hs₂, hlater⟩ := hm' s₁ reads hs₁
    refine ⟨s₂, hs₂, ?_⟩
    rw [EStateM.run_bind, hrun]
    rwa [hheld, List.append_assoc] at hlater
  · refine ⟨s₁, hs₁, Or.inr ⟨?_, ?_⟩⟩
    · rw [EStateM.run_bind, hrun]
    · rw [← List.append_assoc]
      exact List.append_ne_nil_of_left_ne_nil hne bytes'

theorem stalls_hold (bytes : Bytes) : Stalls (hold bytes) bytes := by
  intro s reads hs
  exact ⟨{ s with held := s.held ++ bytes }, hs, Or.inl ⟨rfl, rfl⟩⟩

theorem run_passOn_nil (hs : s.object = .full reads) : (passOn []).run s = .ok () { s with object := .full reads } := by
  simp only [EStateM.run, passOn, hs, FileObject.write, List.isEmpty_nil, if_true]

theorem run_passOn_refused (hs : s.object = .full reads) (hbytes : bytes ≠ []) :
    (passOn bytes).run s = .error (.system .noSpace) s := by
  have hempty : ¬ bytes.isEmpty = true := by rwa [List.isEmpty_iff]
  simp only [EStateM.run, passOn, hs, FileObject.write, if_neg hempty]

theorem stalls_passOn (bytes : Bytes) : Stalls (passOn bytes) bytes := by
  intro s reads hs
  by_cases hbytes : bytes = []
  · subst hbytes
    exact ⟨{ s with object := .full reads }, rfl, Or.inl ⟨run_passOn_nil hs, (List.append_nil s.held).symm⟩⟩
  · refine ⟨s, hs, Or.inr ⟨run_passOn_refused hs hbytes, ?_⟩⟩
    exact List.append_ne_nil_of_right_ne_nil s.held hbytes

/-- Spilling asks the device, which says nothing against a buffer that holds nothing. -/
theorem run_spill_full (hs : s.object = .full reads) :
    ∃ s', s'.object = .full reads ∧
      (spill.run s = .ok () s' ∧ s.held = [] ∧ s'.held = [] ∨
        spill.run s = .error (.system .noSpace) s' ∧ s.held ≠ []) := by
  rw [spill_run, EStateM.run_bind]
  by_cases hheld : s.held = []
  · refine ⟨{ s with object := .full reads, held := [] }, rfl, Or.inl ⟨?_, hheld, rfl⟩⟩
    rw [hheld, run_passOn_nil hs]
    rfl
  · refine ⟨s, hs, Or.inr ⟨?_, hheld⟩⟩
    rw [run_passOn_refused hs hheld]

theorem stalls_spill : Stalls spill [] := by
  intro s reads hs
  obtain ⟨s', hs', ⟨hrun, hheld, hheld'⟩ | ⟨hrun, hne⟩⟩ := run_spill_full hs
  · exact ⟨s', hs', Or.inl ⟨hrun, by rw [hheld', hheld, List.append_nil]⟩⟩
  · exact ⟨s', hs', Or.inr ⟨hrun, by rwa [List.append_nil]⟩⟩

theorem stalls_writeAll (piece : Bytes) : Stalls (Sink.writeAll piece) piece := by
  intro s reads hs
  rcases writeAll_cases piece s with hrun | ⟨hrun, -⟩ | hrun | hrun <;> rw [hrun]
  · exact stalls_hold piece s reads hs
  · exact stalls_passOn piece s reads hs
  · exact stalls_spill.bind (stalls_hold piece) s reads hs
  · exact stalls_spill.bind (stalls_passOn piece) s reads hs

theorem stalls_forM_writeAll (pieces : List Bytes) : Stalls (forM pieces Sink.writeAll) pieces.flatten := by
  induction pieces with
  | nil => exact stalls_pure
  | cons piece pieces ih =>
    rw [List.forM_cons, List.flatten_cons]
    exact (stalls_writeAll piece).bind ih

theorem close_of_full (hs : s.object = .full reads) : s.close = .full reads := by
  rw [close, hs, FileObject.write]
  by_cases hheld : s.held.isEmpty
  · rw [if_pos hheld]
  · rw [if_neg hheld]

/-- A run into a full device succeeds if its course neither sends a byte nor fails. Otherwise it fails as its course
does, or for want of room, and then there was a byte to send. The device stays what it is. -/
theorem run_rewriteAll_full (reads arrivals : List Stream.Arrival) (capacity : Nat) :
    ∃ s, s.close = .full reads ∧
      ((Stream.rewriteAll arrivals).run (BufferedSink.mk (.full reads) [] capacity) = .ok () s ∧
          (Stream.course arrivals).fault = none ∧ (Stream.course arrivals).pieces.flatten = [] ∨
        ∃ f, (Stream.rewriteAll arrivals).run (BufferedSink.mk (.full reads) [] capacity) = .error f s ∧
          ((Stream.course arrivals).fault = some f ∨
            f = .system .noSpace ∧ (Stream.course arrivals).pieces.flatten ≠ [])) := by
  rw [Stream.rewriteAll_eq_run, Stream.Course.run, EStateM.run_bind]
  obtain ⟨s₁, hs₁, ⟨hrun, hheld⟩ | ⟨hrun, hne⟩⟩ :=
    stalls_forM_writeAll (Stream.course arrivals).pieces (BufferedSink.mk (.full reads) [] capacity) reads rfl
  · rw [hrun]
    rw [List.nil_append] at hheld
    cases (Stream.course arrivals).fault with
    | some f => exact ⟨s₁, close_of_full hs₁, Or.inr ⟨f, rfl, Or.inl rfl⟩⟩
    | none =>
      obtain ⟨s₂, hs₂, ⟨hflush, hempty, -⟩ | ⟨hflush, hne⟩⟩ := run_spill_full hs₁
      · exact ⟨s₂, close_of_full hs₂, Or.inl ⟨hflush, rfl, hheld ▸ hempty⟩⟩
      · exact ⟨s₂, close_of_full hs₂, Or.inr ⟨_, hflush, Or.inr ⟨rfl, hheld ▸ hne⟩⟩⟩
  · rw [hrun]
    exact ⟨s₁, close_of_full hs₁, Or.inr ⟨_, rfl, Or.inr ⟨rfl, hne⟩⟩⟩

end BufferedSink

end AnyCase
