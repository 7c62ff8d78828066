import AnyCase.Proofs.Conversion.Stages

/-!
# What a conversion leaves in the files

The output of a conversion holds the rewritten lines of the source up to the first that is not well-formed,
and nothing else, whatever it held before and however large the buffers are (`content_of_output`).

The source is only read, so its content stays, unless the path of the output leads back to it. Then creating
the output has emptied it before the first line is read (`content_of_source`).
-/

namespace AnyCase.Conversion

open FileSystem

variable {fs created : FileSystem} {source output : Path} {sourceId id : Nat} {content old : Bytes}

theorem rewriteThrough_regular (hobject : fs.object id = .regular old) (capacity : Nat)
    (arrivals : List Stream.Arrival) :
    rewriteThrough capacity fs arrivals id =
      (fs.setObject id (.regular (old ++ (Stream.course arrivals).pieces.flatten)),
        (Stream.course arrivals).fault) := by
  obtain ⟨s, hclose, hrun⟩ := BufferedSink.run_rewriteAll arrivals old capacity
  rw [rewriteThrough, hobject, hrun]
  cases (Stream.course arrivals).fault <;> simp only [hclose]

/-- The lines decide what is written to an empty file, not the reads that bring them nor the buffer. -/
theorem rewriteThrough_of_legible {arrivals : List Stream.Arrival} {texts : List Text} {later : List Bytes}
    (hempty : fs.object id = .regular []) (hnone : Stream.failure? arrivals = none)
    (hlegible : Stream.Legible (Stream.lines (Stream.delivered arrivals)) texts later) (capacity : Nat) :
    rewriteThrough capacity fs arrivals id =
      (fs.setObject id (.regular (Utf8.encode (texts.flatMap Line.rewrite))),
        if later = [] then none else some .illFormedLine) := by
  rw [rewriteThrough_regular hempty, Stream.course_of_legible hnone hlegible,
    Stream.flatten_map_encode_rewrite, List.nil_append]

theorem eq_nil_of_create (hcreate : fs.create output = .ok (created, id))
    (hregular : created.object id = .regular old) : old = [] := by
  have hempty := truncate_object_of_create hcreate
  rw [hregular, FileObject.truncate] at hempty
  exact (FileObject.regular.inj hempty).symm

/-- The output holds the rewritten lines of the source before the first that is not well-formed, and that one
decides the result. Other ways in which reads bring the content of the source, and other capacities of the
buffer, leave the same. -/
theorem content_of_output (houtput : output? source = some output)
    (hopened : fs.openForReading source = .ok (.file sourceId)) (hsource : fs.object sourceId = .regular content)
    (hcreate : fs.create output = .ok (created, id)) (hregular : created.object id = .regular old)
    (hother : id ≠ sourceId) :
    ∃ texts later, Stream.Legible (Stream.lines content) texts later ∧
      (convert fs source).1.content? output = some (Utf8.encode (texts.flatMap Line.rewrite)) ∧
      (convert fs source).1.content? source = some content ∧
      (convert fs source).2 = (if later = [] then .ok output else .error (.transform source .illFormedLine)) ∧
      Fault.illFormedLine.message = "stream did not contain valid UTF-8".toList ∧
      ∀ capacity arrivals, Stream.delivered arrivals = content → Stream.failure? arrivals = none →
        rewriteThrough capacity created arrivals id =
          ((convert fs source).1, if later = [] then none else some .illFormedLine) := by
  obtain rfl := eq_nil_of_create hcreate hregular
  obtain ⟨texts, later, hlegible⟩ := Stream.exists_legible (Stream.lines content)
  have hthrough : ∀ capacity arrivals, Stream.delivered arrivals = content → Stream.failure? arrivals = none →
      rewriteThrough capacity created arrivals id =
        (created.setObject id (.regular (Utf8.encode (texts.flatMap Line.rewrite))),
          if later = [] then none else some .illFormedLine) := by
    rintro capacity arrivals rfl hnone
    exact rewriteThrough_of_legible hregular hnone hlegible capacity
  have harrivals : created.arrivals (.file sourceId) = [.chunk content] := by
    rw [arrivals, (confined_create hcreate).object sourceId hother.symm, hsource]
    rfl
  have hinto : rewriteInto created (.file sourceId) id =
      (created.setObject id (.regular (Utf8.encode (texts.flatMap Line.rewrite))),
        if later = [] then none else some .illFormedLine) := by
    rw [rewriteInto, harrivals]
    exact hthrough _ _ (by simp [Stream.delivered, Stream.Arrival.failure?, Stream.Arrival.bytes]) rfl
  have hconfined := confined_convert houtput hopened hcreate
  have hconvert := convert_of_created houtput hopened hcreate
  rw [hinto] at hconvert
  refine ⟨texts, later, hlegible, ?_, ?_, ?_, rfl, ?_⟩
  · exact hconfined.content?_self (by rw [hconvert, object_setObject_self])
  · exact hconfined.content?_of_ne (openForReading_eq_file_iff.mp hopened) hsource hother.symm
  · rw [hconvert]
    by_cases hlater : later = [] <;> simp [hlater]
  · intro capacity arrivals hdelivered hnone
    rw [hthrough capacity arrivals hdelivered hnone, hconvert]

/-- A source with an ill-formed line behind a keyword, and an output that holds something longer. -/
theorem content_of_output_of_stale_text :
    let source : Path := Utf8.encode "X.g4.in".toList
    let output : Path := Utf8.encode "X.g4".toList
    let content : Bytes := Utf8.encode "'a'\n".toList ++ [0xFF, 0x0A, 0x62]
    let table : List (Location × Entry) := [([source], .file 0), ([output], .file 1)]
    let fs : FileSystem := ⟨table, [(0, .regular content), (1, .regular (Utf8.encode "stale text".toList))], []⟩
    let created : FileSystem := ⟨table, [(1, .regular []), (0, .regular content)], []⟩
    (output? source = some output ∧ fs.openForReading source = .ok (.file 0) ∧
      fs.object 0 = .regular content ∧ fs.create output = .ok (created, 1) ∧ created.object 1 = .regular []) ∧
    ∃ texts later, Stream.Legible (Stream.lines content) texts later ∧
      (convert fs source).1.content? output = some (Utf8.encode (texts.flatMap Line.rewrite)) ∧
      (convert fs source).1.content? source = some content ∧
      (convert fs source).2 = (if later = [] then .ok output else .error (.transform source .illFormedLine)) ∧
      Fault.illFormedLine.message = "stream did not contain valid UTF-8".toList ∧
      ∀ capacity arrivals, Stream.delivered arrivals = content → Stream.failure? arrivals = none →
        rewriteThrough capacity created arrivals 1 =
          ((convert fs source).1, if later = [] then none else some .illFormedLine) :=
  ⟨⟨by decide, rfl, rfl, rfl, rfl⟩, content_of_output (by decide) rfl rfl rfl rfl (by decide)⟩

/-! ### The source -/

/-- The path of the output leads to the file that the path of the source leads to, by a link or as another of
its names. -/
def OutputIsSource (fs : FileSystem) (source : Path) : Prop :=
  ∃ output id, output? source = some output ∧ fs.lookup .creating output = .ok (.file id) ∧
    fs.lookup .reading source = .ok (.file id)

/-- A source that is its own output is empty before its first line is read, and nothing fails. -/
theorem convert_of_outputIsSource (houtput : output? source = some output)
    (hcreating : fs.lookup .creating output = .ok (.file id)) (hsource : fs.lookup .reading source = .ok (.file id))
    (hobject : fs.object id = .regular content) :
    (convert fs source).1.content? source = some [] ∧ (convert fs source).2 = .ok output := by
  have hopened := openForReading_eq_file_iff.mpr hsource
  have hcreate := create_of_lookup hcreating
  have hempty : (fs.setObject id (fs.object id).truncate).object id = .regular [] := by
    rw [object_setObject_self, hobject]
    rfl
  have harrivals : (fs.setObject id (fs.object id).truncate).arrivals (.file id) = [.chunk []] := by
    rw [arrivals, hempty]
    rfl
  have hlegible : Stream.Legible (Stream.lines (Stream.delivered [.chunk []])) [] [] := ⟨rfl, by simp⟩
  have hconvert := convert_of_created houtput hopened hcreate
  rw [rewriteInto, harrivals, rewriteThrough_of_legible hempty rfl hlegible] at hconvert
  have hconfined := confined_convert houtput hopened hcreate
  refine ⟨content?_of_lookup (hconfined.lookup_file hsource) ?_, ?_⟩
  · rw [hconvert, object_setObject_self]
    rfl
  · rw [hconvert]
    rfl

/-- What is read through the path of a source after its conversion is what was read before, or nothing at all if
the output is the source itself. -/
theorem content_of_source (hcontent : fs.content? source = some content) :
    (¬ OutputIsSource fs source → (convert fs source).1.content? source = some content) ∧
      (OutputIsSource fs source →
        (convert fs source).1.content? source = some [] ∧ ∃ output, (convert fs source).2 = .ok output) := by
  obtain ⟨sourceId, hsource, hobject⟩ := content?_eq_some_iff.mp hcontent
  constructor
  · intro hother
    rcases convert_tree_cases fs source with htree | ⟨output, opened, created, id, houtput, hopened, hcreate⟩
    · rwa [htree]
    · have hne : sourceId ≠ id := by
        rintro rfl
        exact hother ⟨output, sourceId, houtput, lookup_of_create hcreate hsource, hsource⟩
      exact (confined_convert houtput hopened hcreate).content?_of_ne hsource hobject hne
  · rintro ⟨output, id, houtput, hcreating, hreading⟩
    obtain rfl : sourceId = id := Place.file.inj (Except.ok.inj (hsource.symm.trans hreading))
    obtain ⟨hempty, hok⟩ := convert_of_outputIsSource houtput hcreating hreading hobject
    exact ⟨hempty, output, hok⟩

/-- A source whose output's name is a link back to it. -/
theorem content_of_source_behind_link :
    let source : Path := Utf8.encode "X.g4.in".toList
    let output : Path := Utf8.encode "X.g4".toList
    let content : Bytes := Utf8.encode "'a'\n".toList
    let fs : FileSystem := ⟨[([source], .file 0), ([output], .link source)], [(0, .regular content)], []⟩
    fs.content? source = some content ∧ OutputIsSource fs source ∧
      (convert fs source).1.content? source = some [] ∧ ∃ output, (convert fs source).2 = .ok output := by
  intro source output content fs
  have hcontent : fs.content? source = some content := rfl
  have hshared : OutputIsSource fs source := ⟨output, 0, by decide, rfl, rfl⟩
  exact ⟨hcontent, hshared, (content_of_source hcontent).2 hshared⟩

/-- Nothing keeps a source from being emptied by its own conversion. -/
theorem source_content_can_be_lost :
    ¬ ∀ (fs : FileSystem) (source : Path) (content : Bytes), fs.content? source = some content →
      (convert fs source).1.content? source = some content := by
  intro h
  let source : Path := Utf8.encode "X.g4.in".toList
  let output : Path := Utf8.encode "X.g4".toList
  let content : Bytes := Utf8.encode "'a'\n".toList
  have := h ⟨[([source], .file 0), ([output], .link source)], [(0, .regular content)], []⟩ source content rfl
  revert this
  decide

end AnyCase.Conversion
