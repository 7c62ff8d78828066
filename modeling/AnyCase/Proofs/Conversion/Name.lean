import AnyCase.Conversion.Basic
import AnyCase.Proofs.FileSystem.Path
import AnyCase.Proofs.Text.Display

/-!
# Which paths name sources

The name of a source is told by the path as it is shown, where replacement characters may stand for some of its
bytes. The suffix is ASCII, so this is the same as the end of the bytes themselves (`isSource_iff`). The end holds the
last extension, whatever stands before it, so the path of the output is told by its end too
(`output?_eq_some_iff_append`).
-/

namespace AnyCase.Conversion

theorem sourceSuffix_ascii : ∀ c ∈ sourceSuffix, c.toNat < 0x80 := by
  have hall : sourceSuffix.all (fun c => c.toNat < 0x80) = true := by decide
  simpa only [List.all_eq_true, decide_eq_true_eq] using hall

theorem isSource_iff (p : Path) : isSource p = true ↔ Utf8.encode sourceSuffix <:+ p := by
  rw [isSource, List.isSuffixOf_iff_suffix, Path.display, Utf8.isSuffix_display_iff sourceSuffix_ascii]

theorem output?_eq_none_iff {p : Path} : output? p = none ↔ ¬ Utf8.encode sourceSuffix <:+ p := by
  rw [← isSource_iff, output?]
  cases isSource p <;> simp

theorem output?_eq_some_iff {p output : Path} :
    output? p = some output ↔ Utf8.encode sourceSuffix <:+ p ∧ p.dropExtension = output := by
  rw [← isSource_iff, output?]
  cases isSource p <;> simp

theorem isSource_of_output? {p output : Path} (houtput : output? p = some output) : isSource p = true :=
  (isSource_iff p).mpr (output?_eq_some_iff.mp houtput).1

/-- The bytes at the end of every source's path. -/
def sourceEnding : Bytes := Utf8.encode sourceSuffix

/-- What is left of them in the path of the output. -/
def outputEnding : Bytes := Utf8.encode ".g4".toList

theorem sourceEnding_eq : sourceEnding = outputEnding ++ Utf8.encode ".in".toList := by decide

/-- The last name of a source's path has an extension, since the stem holds at least the rest of the ending. -/
theorem exists_extended (front : Path) :
    ∃ (directory : Path) (stem : Name),
      Path.Extended (front ++ sourceEnding) directory stem (Utf8.encode "in".toList) ∧
        directory ++ stem = front ++ outputEnding := by
  obtain ⟨directory, name, rfl, hdirectory, hname⟩ := Path.exists_directory front
  have hending : sourceEnding = outputEnding ++ Path.dot :: Utf8.encode "in".toList := by decide
  have hseparator : Path.separator ∉ outputEnding := by decide
  refine ⟨directory, name ++ outputEnding, ⟨?_, hdirectory, ?_, ?_, by decide, by decide⟩, ?_⟩
  · rw [hending]
    simp
  · simp [outputEnding]
  · rw [List.mem_append, not_or]
    exact ⟨hname, hseparator⟩
  · rw [List.append_assoc]

/-- The path of a source without its last extension. -/
theorem dropExtension_append_sourceEnding (front : Path) :
    Path.dropExtension (front ++ sourceEnding) = front ++ outputEnding := by
  obtain ⟨directory, stem, hextended, hpath⟩ := exists_extended front
  rw [hextended.dropExtension_eq, hpath]

/-- No bytes end in both. -/
theorem not_sourceEnding_suffix (front : Bytes) : ¬ sourceEnding <:+ front ++ outputEnding := by
  intro hsuffix
  obtain ⟨front', hfront⟩ := hsuffix
  have hlast := congrArg List.getLast? hfront
  have hsource : sourceEnding.getLast? = some 0x6E := by decide
  have houtput : outputEnding.getLast? = some 0x34 := by decide
  rw [List.getLast?_append, List.getLast?_append, hsource, houtput, Option.some_or, Option.some_or] at hlast
  exact absurd hlast (by decide)

theorem output?_eq_some_iff_append {p output : Path} :
    output? p = some output ↔ ∃ front, p = front ++ sourceEnding ∧ output = front ++ outputEnding := by
  rw [output?_eq_some_iff]
  constructor
  · rintro ⟨⟨front, rfl⟩, rfl⟩
    exact ⟨front, rfl, dropExtension_append_sourceEnding front⟩
  · rintro ⟨front, rfl, rfl⟩
    exact ⟨⟨front, rfl⟩, dropExtension_append_sourceEnding front⟩

end AnyCase.Conversion
