import AnyCase.Proofs.Conversion.Stages

/-!
# Sources and outputs in pairs

A source is told by the last bytes of its path, although what is asked for is the end of the path as it is shown, and
every other path is refused as it is (`refused_by_last_bytes`). The path of the output is that of the source without its
last three bytes. So no two sources have one output, and no output is a source (`output_of_source`).
-/

namespace AnyCase.Conversion

variable {p output : Path} {failure : Failure}

theorem outputPath_eq_ok_iff : outputPath p = .ok output ↔ output? p = some output := by
  rw [outputPath]
  cases output? p <;> simp

theorem outputPath_eq_error_iff :
    outputPath p = .error failure ↔ ¬ Utf8.encode sourceSuffix <:+ p ∧ failure = .unrecognizedFileType p := by
  rw [← output?_eq_none_iff, outputPath]
  cases output? p <;> simp [eq_comm]

/-- A path that is refused is refused before any file is touched. -/
theorem convert_of_refused (hrefused : outputPath p = .error failure) (fs : FileSystem) :
    convert fs p = (fs, .error failure) := by
  obtain ⟨hsuffix, rfl⟩ := outputPath_eq_error_iff.mp hrefused
  rw [convert_eq, output?_eq_none_iff.mpr hsuffix]

theorem convert_eq_refused_iff (fs : FileSystem) :
    convert fs p = (fs, .error (.unrecognizedFileType p)) ↔ outputPath p = .error (.unrecognizedFileType p) := by
  constructor
  · intro hconvert
    have hresult := (convert_ends fs p).unrecognizedFileType_iff.mp (congrArg Prod.snd hconvert)
    exact outputPath_eq_error_iff.mpr ⟨hresult.2, rfl⟩
  · intro hrefused
    exact convert_of_refused hrefused fs

/-! ### The last bytes of a source -/

theorem sourceSuffix_iff_drop (p : Path) :
    Utf8.encode sourceSuffix <:+ p ↔ p.drop (p.length - 6) = [0x2E, 0x67, 0x34, 0x2E, 0x69, 0x6E] := by
  have hencode : Utf8.encode sourceSuffix = [0x2E, 0x67, 0x34, 0x2E, 0x69, 0x6E] := by decide
  rw [hencode, List.suffix_iff_eq_drop, eq_comm]
  rfl

/-- A path is that of a source exactly if its last six bytes are `.g4.in`, whatever stands before them. Every other
path is refused with a failure that holds all its bytes, and its conversion comes to nothing else. -/
theorem refused_by_last_bytes (p : Path) :
    (isSource p = true ↔ p.drop (p.length - 6) = [0x2E, 0x67, 0x34, 0x2E, 0x69, 0x6E]) ∧
    (outputPath p = .error (.unrecognizedFileType p) ↔
      p.drop (p.length - 6) ≠ [0x2E, 0x67, 0x34, 0x2E, 0x69, 0x6E]) ∧
    ((∃ output, outputPath p = .ok output) ↔ p.drop (p.length - 6) = [0x2E, 0x67, 0x34, 0x2E, 0x69, 0x6E]) ∧
    ∀ fs, convert fs p = (fs, .error (.unrecognizedFileType p)) ↔
      p.drop (p.length - 6) ≠ [0x2E, 0x67, 0x34, 0x2E, 0x69, 0x6E] := by
  have hrefused : outputPath p = .error (.unrecognizedFileType p) ↔ ¬ Utf8.encode sourceSuffix <:+ p := by
    rw [outputPath_eq_error_iff, and_iff_left rfl]
  rw [ne_eq, ← sourceSuffix_iff_drop]
  refine ⟨isSource_iff p, hrefused, ?_, fun fs => ?_⟩
  · simp only [outputPath_eq_ok_iff, output?_eq_some_iff, exists_and_left, exists_eq', and_true]
  · rw [convert_eq_refused_iff, hrefused]

example : isSource [0xF0, 0x9F, 0x2E, 0x67, 0x34, 0x2E, 0x69, 0x6E] = true := by decide

/-! ### Sources and their outputs -/

/-- The path of a source's output is that of the source without its last three bytes, `.in`, which are the extension of
the last name and its dot. No other source has this output, and the output is no source. -/
theorem output_of_source (hsource : isSource p = true) :
    ∃ output, outputPath p = .ok output ∧
      (output = p.take (p.length - 3) ∧ output ++ Utf8.encode ".in".toList = p) ∧
      (∃ (directory : Path) (stem : Name),
        Path.Extended p directory stem (Utf8.encode "in".toList) ∧ output = directory ++ stem) ∧
      (∀ q, isSource q = true → outputPath q = .ok output → q = p) ∧
      isSource output = false := by
  rw [isSource_iff] at hsource
  obtain ⟨front, rfl⟩ : ∃ front, front ++ sourceEnding = p := hsource
  have hpath : front ++ outputEnding ++ Utf8.encode ".in".toList = front ++ sourceEnding := by
    rw [sourceEnding_eq, List.append_assoc]
  refine ⟨front ++ outputEnding, ?_, ⟨?_, hpath⟩, ?_, ?_, ?_⟩
  · rw [outputPath_eq_ok_iff, output?_eq_some_iff_append]
    exact ⟨front, rfl, rfl⟩
  · have hlength : (Utf8.encode ".in".toList).length = 3 := by decide
    rw [← hpath, List.length_append, hlength, Nat.add_sub_cancel, List.take_left]
  · obtain ⟨directory, stem, hextended, hstem⟩ := exists_extended front
    exact ⟨directory, stem, hextended, hstem.symm⟩
  · intro q _ houtput
    rw [outputPath_eq_ok_iff, output?_eq_some_iff_append] at houtput
    obtain ⟨front', rfl, hsame⟩ := houtput
    rw [List.append_cancel_right hsame]
  · rw [← Bool.not_eq_true, isSource_iff]
    exact not_sourceEnding_suffix front

/-- A name that is nothing but the ending of a source, behind steps up, an empty name, and bytes that are no text. -/
theorem output_of_bare_ending :
    let p : Path := [0x61, 0x2F, 0x2F, 0x2E, 0x2E, 0x2F, 0xFF, 0x00, 0x2E, 0x2F] ++ sourceEnding
    isSource p = true ∧
    ∃ output, outputPath p = .ok output ∧
      (output = p.take (p.length - 3) ∧ output ++ Utf8.encode ".in".toList = p) ∧
      (∃ (directory : Path) (stem : Name),
        Path.Extended p directory stem (Utf8.encode "in".toList) ∧ output = directory ++ stem) ∧
      (∀ q, isSource q = true → outputPath q = .ok output → q = p) ∧
      isSource output = false :=
  ⟨by decide, output_of_source (by decide)⟩

end AnyCase.Conversion
