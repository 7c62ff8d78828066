import AnyCase.Proofs.CommandLine.Batch
import AnyCase.Proofs.Conversion.Plain

/-!
# Order and repetition of the files

In a plain tree every conversion in a batch does what it would do first: no output is a source, a place that got
its output keeps its kind, and a new file turns no failing lookup into one that succeeds. So the tree after a
batch depends on the spots that its files lead to (`done_inTurn`), and not on their order, their repetitions or
their spellings (`tree_of_same_sources`).
-/

namespace AnyCase.Conversion

open FileSystem

/-- `fs'` is the tree `fs` with the outputs of these spots. -/
structure Done (fs : FileSystem) (spots : Spot → Prop) (fs' : FileSystem) : Prop where
  plain : Plain fs'
  current : fs'.current = fs.current
  output : ∀ spot, spots spot → fs'.item? spot.output = outcome (fs.item? spot.source) (fs.item? spot.output)
  other : ∀ loc, (∀ spot, spots spot → loc ≠ spot.output) → fs'.item? loc = fs.item? loc

variable {fs fs' : FileSystem} {spots : Spot → Prop} {path : Path}

theorem item?_eq_directory_iff {loc : Location} : fs.item? loc = some .directory ↔ fs.get? loc = some .directory := by
  rw [item?]
  rcases fs.get? loc with _ | _ | _ | _ <;> simp

theorem outcome_eq_directory_iff {source output : Option Item} :
    outcome source output = some .directory ↔ output = some .directory := by
  rcases source with _ | item
  · rfl
  · rcases output with _ | _ | _ | _ <;> simp [outcome]

namespace Done

theorem item?_source (h : Done fs spots fs') (spot : Spot) : fs'.item? spot.source = fs.item? spot.source :=
  h.other spot.source fun spot' _ => Spot.source_ne_output spot spot'

theorem get?_eq_directory_iff (h : Done fs spots fs') (loc : Location) :
    fs'.get? loc = some .directory ↔ fs.get? loc = some .directory := by
  rw [← item?_eq_directory_iff, ← item?_eq_directory_iff]
  by_cases hloc : ∃ spot, spots spot ∧ loc = spot.output
  · obtain ⟨spot, hspot, rfl⟩ := hloc
    rw [h.output spot hspot, outcome_eq_directory_iff]
  · rw [h.other loc fun spot hspot heq => hloc ⟨spot, hspot, heq⟩]

/-- Outputs make no path lead to a spot, and keep none from it. -/
theorem lies_iff (h : Done fs spots fs') {spot : Spot} : Lies fs' path spot ↔ Lies fs path spot :=
  lies_congr h.current h.get?_eq_directory_iff

/-- Whether its output was there or not, a spot gets the output that it would get first. -/
theorem outcome_item? (h : Done fs spots fs') (spot : Spot) :
    outcome (fs'.item? spot.source) (fs'.item? spot.output) =
      outcome (fs.item? spot.source) (fs.item? spot.output) := by
  rw [h.item?_source]
  by_cases hspot : spots spot
  · rw [h.output spot hspot, outcome_outcome]
  · rw [h.other spot.output]
    intro spot' hspot' heq
    exact hspot (Spot.eq_of_named_eq heq ▸ hspot')

theorem convert (h : Done fs spots fs') (path : Path) :
    Done fs (fun spot => spots spot ∨ Lies fs path spot) (convert fs' path).1 := by
  by_cases hnowhere : ∀ spot, ¬ Lies fs' path spot
  · rw [convert_of_not_lies h.plain hnowhere]
    have hsame : ∀ spot, spots spot ∨ Lies fs path spot → spots spot := by
      rintro spot (hspot | hlies)
      · exact hspot
      · exact absurd (h.lies_iff.mpr hlies) (hnowhere spot)
    exact {
      plain := h.plain
      current := h.current
      output := fun spot hspot => h.output spot (hsame spot hspot)
      other := fun loc hloc => h.other loc fun spot hspot => hloc spot (Or.inl hspot) }
  · obtain ⟨spot, hlies⟩ := Classical.not_forall_not.mp hnowhere
    have heffect := effect_convert h.plain hlies
    have hlies' := h.lies_iff.mp hlies
    exact {
      plain := heffect.plain
      current := heffect.current.trans h.current
      output := by
        intro spot' hspot'
        rcases hspot' with hdone | hlies''
        · by_cases heq : spot'.output = spot.output
          · obtain rfl := Spot.eq_of_named_eq heq
            rw [heffect.output, h.outcome_item?]
          · rw [heffect.other _ heq, h.output spot' hdone]
        · rw [(effect_convert h.plain (h.lies_iff.mpr hlies'')).output, h.outcome_item?]
      other := by
        intro loc hloc
        rw [heffect.other loc (hloc spot (Or.inr hlies')), h.other loc fun spot' hspot' => hloc spot' (Or.inl hspot')] }

end Done

theorem done_refl (hplain : Plain fs) : Done fs (fun _ => False) fs where
  plain := hplain
  current := rfl
  output _ h := h.elim
  other _ _ := rfl

theorem Done.congr {spots' : Spot → Prop} (h : Done fs spots fs') (hspots : ∀ spot, spots' spot ↔ spots spot) :
    Done fs spots' fs' := by
  obtain rfl : spots' = spots := funext fun spot => propext (hspots spot)
  exact h

/-- A batch leaves the outputs of the spots that its files lead to, as the tree was at the start. -/
theorem Done.inTurn (h : Done fs spots fs') (paths : List Path) :
    Done fs (fun spot => spots spot ∨ ∃ path ∈ paths, Lies fs path spot) (inTurn fs' paths) := by
  induction paths generalizing fs' spots with
  | nil => exact h.congr (by simp)
  | cons path paths ih =>
    rw [inTurn_cons]
    exact (ih (h.convert path)).congr (by simp [or_assoc])

theorem done_inTurn (hplain : Plain fs) (paths : List Path) :
    Done fs (fun spot => ∃ path ∈ paths, Lies fs path spot) (inTurn fs paths) :=
  ((done_refl hplain).inTurn paths).congr (by simp)

/-- The tree is the same to everybody who looks at it. -/
def SameTree (fs fs' : FileSystem) : Prop :=
  fs.current = fs'.current ∧ ∀ loc, fs.item? loc = fs'.item? loc

theorem Done.sameTree {tree tree' : FileSystem} (h : Done fs spots tree) (h' : Done fs spots tree') :
    SameTree tree tree' := by
  refine ⟨h.current.trans h'.current.symm, fun loc => ?_⟩
  by_cases hloc : ∃ spot, spots spot ∧ loc = spot.output
  · obtain ⟨spot, hspot, rfl⟩ := hloc
    rw [h.output spot hspot, h'.output spot hspot]
  · have hother : ∀ spot, spots spot → loc ≠ spot.output := fun spot hspot heq => hloc ⟨spot, hspot, heq⟩
    rw [h.other loc hother, h'.other loc hother]

end AnyCase.Conversion

namespace AnyCase.CommandLine

open Conversion FileSystem

variable {fs : FileSystem} {files files' : List Path} {path path' : Path}

/-- The paths are those of sources, or neither is, and lead to the same, whatever their spelling. -/
def SameSource (fs : FileSystem) (path path' : Path) : Prop :=
  isSource path = isSource path' ∧ fs.lookup .reading path = fs.lookup .reading path'

/-- Each of the files is among the others, perhaps in another spelling. -/
def Among (fs : FileSystem) (files files' : List Path) : Prop :=
  ∀ file ∈ files, ∃ file' ∈ files', file = file' ∨ SameSource fs file file'

instance (fs : FileSystem) (path path' : Path) : Decidable (SameSource fs path path') :=
  inferInstanceAs (Decidable (_ ∧ _))

instance (fs : FileSystem) (files files' : List Path) : Decidable (Among fs files files') :=
  inferInstanceAs (Decidable (∀ file ∈ files, ∃ file' ∈ files', file = file' ∨ SameSource fs file file'))

theorem SameSource.lies (hplain : Plain fs) (hsame : SameSource fs path path') {spot : Spot}
    (hlies : Lies fs path spot) : Lies fs path' spot := by
  obtain ⟨hsource, hlookup⟩ := hsame
  obtain ⟨output, houtput⟩ := hlies.exists_output
  rw [isSource_of_output? houtput] at hsource
  have houtput' : output? path' = some path'.dropExtension := by rw [output?, if_pos hsource.symm]
  rw [hlies.lookup_source hplain] at hlookup
  obtain ⟨spot', hlies'⟩ := exists_lies hplain houtput' hlookup.symm
  rw [hlies'.lookup_source hplain] at hlookup
  have hlocation := hplain.placeAt_injective (Except.ok.inj hlookup)
  obtain rfl := Spot.eq_of_named_eq hlocation
  exact hlies'

theorem lies_of_among (hplain : Plain fs) (hamong : Among fs files files') {spot : Spot}
    (hlies : ∃ file ∈ files.filter isSource, Lies fs file spot) :
    ∃ file ∈ files'.filter isSource, Lies fs file spot := by
  obtain ⟨file, hmem, hlies⟩ := hlies
  obtain ⟨file', hmem', hsame⟩ := hamong file (List.mem_filter.mp hmem).1
  have hlies' : Lies fs file' spot := by
    rcases hsame with rfl | hsame
    · exact hlies
    · exact hsame.lies hplain hlies
  obtain ⟨output, houtput⟩ := hlies'.exists_output
  exact ⟨file', List.mem_filter.mpr ⟨hmem', isSource_of_output? houtput⟩, hlies'⟩

theorem tree_run {parser : Parser} {arguments : List Bytes} (hfiles : parser arguments = .files files)
    (fs : FileSystem) : (run parser fs arguments).run.fileSystem = inTurn fs (files.filter isSource) := by
  by_cases hne : files = []
  · subst hne
    rw [run_of_no_files hfiles]
    rfl
  · rw [run_eq_processed hfiles hne, processed_eq]

/-- Two runs over files that are the same but for their order, their repetitions and their spellings leave the
same tree, and in it every file that has the name of a source is as it was. -/
theorem tree_of_same_sources (hplain : Plain fs) {parser : Parser} {arguments arguments' : List Bytes}
    (hfiles : parser arguments = .files files) (hfiles' : parser arguments' = .files files')
    (hamong : Among fs files files') (hamong' : Among fs files' files) :
    let tree := (run parser fs arguments).run.fileSystem
    let tree' := (run parser fs arguments').run.fileSystem
    SameTree tree tree' ∧ Plain tree ∧ Plain tree' ∧
      ∀ dir name, Utf8.encode ".g4.in".toList <:+ name → tree.item? (dir ++ [name]) = fs.item? (dir ++ [name]) := by
  intro tree tree'
  have hdone := done_inTurn hplain (files.filter isSource)
  have hdone' := done_inTurn hplain (files'.filter isSource)
  rw [← tree_run hfiles] at hdone
  rw [← tree_run hfiles'] at hdone'
  refine ⟨hdone.sameTree (hdone'.congr fun spot => ?_), hdone.plain, hdone'.plain, fun dir name hname => ?_⟩
  · exact ⟨lies_of_among hplain hamong, lies_of_among hplain hamong'⟩
  · exact hdone.other _ fun spot _ => Spot.output_ne_of_suffix hname spot

/-- A source below a directory and one beside it, both in two spellings, and one that is missing. -/
theorem tree_of_respelled_sources :
    let directory : Name := Utf8.encode "a".toList
    let keywords : Name := Utf8.encode "X.g4.in".toList
    let missing : Path := Utf8.encode "M.g4.in".toList
    let fs : FileSystem :=
      ⟨[([directory], .directory), ([directory, keywords], .file 0), ([keywords], .file 1)],
        [(0, .regular (Utf8.encode "'a'\n".toList)), (1, .regular (Utf8.encode "'b'\n".toList))], []⟩
    let files : List Path := [Utf8.encode "a/X.g4.in".toList, missing, Utf8.encode "a/../X.g4.in".toList]
    let files' : List Path :=
      [keywords, Utf8.encode "./a//X.g4.in".toList, missing, Utf8.encode "a/X.g4.in".toList]
    (Plain fs ∧ parse files = .files files ∧ parse (endOfFlags :: files') = .files files' ∧
      Among fs files files' ∧ Among fs files' files) ∧
    let tree := (run parse fs files).run.fileSystem
    let tree' := (run parse fs (endOfFlags :: files')).run.fileSystem
    SameTree tree tree' ∧ Plain tree ∧ Plain tree' ∧
      ∀ dir name, Utf8.encode ".g4.in".toList <:+ name → tree.item? (dir ++ [name]) = fs.item? (dir ++ [name]) := by
  intro directory keywords missing fs files files'
  have hplain : Plain fs := plain_of_entries (by decide) (by decide)
  have hfiles : parse files = .files files := by decide
  have hfiles' : parse (endOfFlags :: files') = .files files' := by decide
  have hamong : Among fs files files' := by decide
  have hamong' : Among fs files' files := by decide
  exact ⟨⟨hplain, hfiles, hfiles', hamong, hamong'⟩, tree_of_same_sources hplain hfiles hfiles' hamong hamong'⟩

end AnyCase.CommandLine
