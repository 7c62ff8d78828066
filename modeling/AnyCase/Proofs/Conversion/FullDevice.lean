import AnyCase.Proofs.Conversion.Stages
import AnyCase.Proofs.Stream.Numbering

/-!
# Conversions into a device without room

A source whose output is a full device can be converted only if nothing comes of its lines. The buffer may keep the
refusal of the device back up to the flush, but no further, so it becomes the result, unless an ill-formed line has
ended the conversion before (`convert_into_full_device`). The tree stays as it was.
-/

namespace AnyCase.Conversion

open FileSystem

variable {fs : FileSystem} {source output : Path} {id : Nat} {content : Bytes} {reads : List Stream.Arrival}

theorem rewriteThrough_full (hfull : fs.object id = .full reads) (capacity : Nat) (arrivals : List Stream.Arrival) :
    ∃ fault, rewriteThrough capacity fs arrivals id = (fs.setObject id (.full reads), fault) ∧
      (fault = none ↔ (Stream.course arrivals).fault = none ∧ (Stream.course arrivals).pieces.flatten = []) ∧
      ∀ f, fault = some f → (Stream.course arrivals).fault = none → f = .system .noSpace := by
  obtain ⟨s, hclose, ⟨hrun, hfault, hnothing⟩ | ⟨f, hrun, hreason⟩⟩ :=
    BufferedSink.run_rewriteAll_full reads arrivals capacity
  · refine ⟨none, ?_, iff_of_true rfl ⟨hfault, hnothing⟩, ?_⟩
    · rw [rewriteThrough, hfull, hrun]
      simp only [hclose]
    · intro f hf
      cases hf
  · refine ⟨some f, ?_, ?_, ?_⟩
    · rw [rewriteThrough, hfull, hrun]
      simp only [hclose]
    · apply iff_of_false (Option.some_ne_none f)
      intro h
      obtain ⟨hfault, hnothing⟩ := h
      rcases hreason with hf | ⟨-, hne⟩
      · exact Option.some_ne_none f (hf.symm.trans hfault)
      · exact hne hnothing
    · intro f' hf' hfault
      obtain rfl := Option.some.inj hf'
      rcases hreason with hf | ⟨hf, -⟩
      · exact absurd (hf.symm.trans hfault) (Option.some_ne_none f)
      · exact hf

theorem create_full (hdevice : fs.lookup .reading output = .ok (.file id)) (hfull : fs.object id = .full reads) :
    fs.create output = .ok (fs.setObject id (.full reads), id) := by
  rw [create_of_lookup (lookup_file_iff.mpr hdevice), hfull]
  rfl

/-- A conversion whose output is a full device succeeds exactly if the source is well-formed and its rewritten lines
together are empty. Otherwise it fails in its last stage, and for want of room if the source is well-formed. In either
case no entry and no file object is changed. -/
theorem convert_into_full_device (houtput : output? source = some output)
    (hdevice : fs.lookup .reading output = .ok (.file id)) (hfull : fs.object id = .full reads)
    (hcontent : fs.content? source = some content) :
    ((convert fs source).2 = .ok output ↔
      ∃ texts : List Text, Utf8.decode? content = some texts.flatten ∧
        Stream.lines content = texts.map Utf8.encode ∧ texts.flatMap Line.rewrite = []) ∧
    ((convert fs source).2 ≠ .ok output →
      ∃ cause, (convert fs source).2 = .error (.transform source cause) ∧
        ((∃ text, Utf8.decode? content = some text) → cause = .system .noSpace)) ∧
    (Fault.system .noSpace).message = "No space left on device (os error 28)".toList ∧
    (convert fs source).1.current = fs.current ∧
    (∀ loc, (convert fs source).1.get? loc = fs.get? loc) ∧
    ∀ id', (convert fs source).1.object id' = fs.object id' := by
  obtain ⟨sourceId, hsource, hregular⟩ := content?_eq_some_iff.mp hcontent
  have hopened := openForReading_eq_file_iff.mpr hsource
  have hcreate := create_full hdevice hfull
  have harrivals : (fs.setObject id (.full reads)).arrivals (.file sourceId) = [.chunk content] := by
    rw [arrivals, object_setObject_of_eq hfull, hregular]
    rfl
  have hdelivered : Stream.delivered [.chunk content] = content := List.append_nil content
  have hnone : Stream.failure? [.chunk content] = none := rfl
  have hnothing := Stream.course_writes_nothing_iff hnone
  rw [hdelivered] at hnothing
  obtain ⟨fault, hthrough, hsucceeds, hfails⟩ :=
    rewriteThrough_full (object_setObject_self fs id (.full reads)) BufferedSink.usualCapacity [.chunk content]
  have hconvert := convert_of_created houtput hopened hcreate
  rw [rewriteInto, harrivals, hthrough, setObject_setObject] at hconvert
  rw [hconvert]
  refine ⟨?_, ?_, rfl, rfl, fun _ => rfl, object_setObject_of_eq hfull⟩
  · rw [← hnothing, ← hsucceeds]
    cases fault with
    | none => exact iff_of_true rfl rfl
    | some f => exact iff_of_false (by simp) (Option.some_ne_none f)
  · intro hfailed
    cases fault with
    | none => exact absurd rfl hfailed
    | some f =>
      refine ⟨f, rfl, fun h => hfails f rfl ?_⟩
      obtain ⟨text, htext⟩ := h
      rw [← hdelivered] at htext
      exact Stream.fault_course_of_decode? hnone htext

/-- Two sources whose outputs are links to the device: an empty keyword, of which nothing is left, and a keyword that
fits into the buffer. -/
theorem convert_into_full_device_of_empty_keyword :
    let dev : Name := Utf8.encode "dev".toList
    let full : Name := Utf8.encode "full".toList
    let target : Path := Utf8.encode "/dev/full".toList
    let source : Path := Utf8.encode "X.g4.in".toList
    let output : Path := Utf8.encode "X.g4".toList
    let source' : Path := Utf8.encode "Y.g4.in".toList
    let output' : Path := Utf8.encode "Y.g4".toList
    let zeros : List Stream.Arrival := [.chunk [0x00], .chunk [0x00]]
    let content : Bytes := Utf8.encode "''".toList
    let content' : Bytes := Utf8.encode "'a'\n".toList
    let fs : FileSystem :=
      ⟨[([dev], .directory), ([dev, full], .file 0), ([source], .file 1), ([output], .link target),
          ([source'], .file 2), ([output'], .link target)],
        [(0, .full zeros), (1, .regular content), (2, .regular content')], []⟩
    (output? source = some output ∧ fs.lookup .reading output = .ok (.file 0) ∧ fs.object 0 = .full zeros ∧
      fs.content? source = some content ∧ (convert fs source).2 = .ok output) ∧
    (output? source' = some output' ∧ fs.lookup .reading output' = .ok (.file 0) ∧
      fs.content? source' = some content' ∧
      (convert fs source').2 = .error (.transform source' (.system .noSpace)) ∧
      ∀ id, (convert fs source').1.object id = fs.object id) := by
  intro dev full target source output source' output' zeros content content' fs
  have houtput : output? source = some output := by decide
  have houtput' : output? source' = some output' := by decide
  have hfull : fs.object 0 = .full zeros := rfl
  have hdevice : fs.lookup .reading output = .ok (.file 0) := rfl
  have hdevice' : fs.lookup .reading output' = .ok (.file 0) := rfl
  have hcontent : fs.content? source = some content := rfl
  have hcontent' : fs.content? source' = some content' := rfl
  obtain ⟨hsucceeds, -⟩ := convert_into_full_device houtput hdevice hfull hcontent
  obtain ⟨-, hfails, -, -, -, hobject⟩ := convert_into_full_device houtput' hdevice' hfull hcontent'
  refine ⟨⟨houtput, hdevice, hfull, hcontent, ?_⟩, houtput', hdevice', hcontent', ?_, hobject⟩
  · apply hsucceeds.mpr
    exact ⟨[['\x27', '\x27']], by decide, by decide, by decide +kernel⟩
  · obtain ⟨cause, hresult, hcause⟩ := hfails (by decide +kernel)
    rw [hresult, hcause ⟨['\x27', 'a', '\x27', '\n'], by decide⟩]

end AnyCase.Conversion
