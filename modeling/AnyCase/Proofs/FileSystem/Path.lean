import AnyCase.FileSystem.Lookup
import Mathlib.Data.List.Induction

/-!
# The end of a path

An ending without a slash belongs to the last name of a path, so two paths that differ by such an ending differ
in their last step only. The extension of that name is the one that a path loses (`Extended.dropExtension_eq`).
-/

namespace AnyCase.Path

theorem exists_splitOn_append (p : Path) :
    ∃ names front, ∀ ending : Bytes, separator ∉ ending →
      (p ++ ending).splitOn separator = names ++ [front ++ ending] := by
  induction p with
  | nil => exact ⟨[], [], fun ending hending => List.splitOn_eq_singleton hending⟩
  | cons b p ih =>
    obtain ⟨names, front, hsplit⟩ := ih
    by_cases hb : b = separator
    · refine ⟨[] :: names, front, fun ending hending => ?_⟩
      rw [List.cons_append, List.splitOn_cons_eq_if_modifyHead, if_pos (beq_iff_eq.mpr hb), hsplit ending hending,
        List.cons_append]
    · cases names with
      | nil =>
        refine ⟨[], b :: front, fun ending hending => ?_⟩
        rw [List.cons_append, List.splitOn_cons_eq_if_modifyHead, if_neg (by simpa using hb), hsplit ending hending]
        rfl
      | cons first names =>
        refine ⟨(b :: first) :: names, front, fun ending hending => ?_⟩
        rw [List.cons_append, List.splitOn_cons_eq_if_modifyHead, if_neg (by simpa using hb), hsplit ending hending]
        rfl

/-- However a path ends, the steps before its last name are the same. -/
theorem exists_steps_append (p : Path) :
    ∃ prior front, ∀ ending : Bytes, ending ≠ [] → separator ∉ ending →
      (p ++ ending).steps = prior ++ [stepOfName (front ++ ending)] := by
  obtain ⟨names, front, hsplit⟩ := exists_splitOn_append p
  refine ⟨(names.filter (· ≠ [])).map stepOfName, front, fun ending hne hending => ?_⟩
  have hlast : (p ++ ending).getLast? ≠ some separator := by
    rw [List.getLast?_append, List.getLast?_eq_some_getLast hne, Option.some_or]
    intro hseparator
    exact hending (Option.some.inj hseparator ▸ List.getLast_mem hne)
  rw [steps, hsplit ending hending, if_neg hlast]
  simp [hne]

theorem stepOfName_of_length {n : Name} (hlength : 2 < n.length) : stepOfName n = .name n := by
  have hdot : n ≠ [dot] := by
    rintro rfl
    simp at hlength
  have hdots : n ≠ [dot, dot] := by
    rintro rfl
    simp at hlength
  rw [stepOfName, if_neg hdot, if_neg hdots]

/-! ### Extensions -/

/-- Behind a directory, the last name of the path is a stem, a dot and an extension without a dot. A dot that begins
the name begins no extension. -/
structure Extended (p directory : Path) (stem extension : Name) : Prop where
  eq : p = directory ++ (stem ++ dot :: extension)
  directory_ends : directory = [] ∨ directory.getLast? = some separator
  stem_ne_nil : stem ≠ []
  separator_not_mem_stem : separator ∉ stem
  separator_not_mem_extension : separator ∉ extension
  dot_not_mem_extension : dot ∉ extension

theorem exists_directory (p : Path) :
    ∃ (directory : Path) (name : Name),
      p = directory ++ name ∧ (directory = [] ∨ directory.getLast? = some separator) ∧ separator ∉ name := by
  induction p using List.reverseRecOn with
  | nil => exact ⟨[], [], rfl, Or.inl rfl, List.not_mem_nil⟩
  | append_singleton p b ih =>
    by_cases hb : b = separator
    · exact ⟨p ++ [b], [], by simp, Or.inr (by simp [hb]), List.not_mem_nil⟩
    · obtain ⟨directory, name, rfl, hdirectory, hname⟩ := ih
      exact ⟨directory, name ++ [b], by simp, hdirectory, by simp [hname, Ne.symm hb]⟩

theorem Extended.dropExtension_eq {p directory : Path} {stem extension : Name}
    (hp : Extended p directory stem extension) : p.dropExtension = directory ++ stem := by
  obtain ⟨stem', c, rfl⟩ : ∃ (stem' : Name) (c : UInt8), stem = stem' ++ [c] :=
    ⟨stem.dropLast, stem.getLast hp.stem_ne_nil, (List.dropLast_concat_getLast hp.stem_ne_nil).symm⟩
  have hc : c ≠ separator := fun h => hp.separator_not_mem_stem (by simp [h])
  have hextension : ∀ b ∈ extension.reverse, decide (b ≠ dot ∧ b ≠ separator) = true := by
    intro b hb
    rw [List.mem_reverse] at hb
    rw [decide_eq_true_eq]
    exact ⟨fun h => hp.dot_not_mem_extension (h ▸ hb), fun h => hp.separator_not_mem_extension (h ▸ hb)⟩
  have hreverse : p.reverse = extension.reverse ++ dot :: c :: (stem'.reverse ++ directory.reverse) := by
    rw [hp.eq]
    simp
  rw [dropExtension, hreverse, List.dropWhile_append_of_pos hextension, List.dropWhile_cons_of_neg (by simp)]
  dsimp only
  rw [if_pos ⟨rfl, hc⟩]
  simp

theorem beginning_append {p : Path} (hp : p ≠ []) (dir : Location) (ending : Bytes) :
    FileSystem.beginning dir (p ++ ending) = FileSystem.beginning dir p := by
  cases p with
  | nil => exact absurd rfl hp
  | cons b p => rfl

end AnyCase.Path
