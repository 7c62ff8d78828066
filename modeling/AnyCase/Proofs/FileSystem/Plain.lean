import AnyCase.Proofs.FileSystem.Create

/-!
# Trees without links

In a `Plain` tree there are no symbolic links and no file has two names, so places and locations are the same
thing: a lookup goes from directory to directory (`descend`), and where it ends is where the last name stands
(`lookup_eq_placeAt_iff`). Which directories there are is all that such a descent depends on.
-/

namespace AnyCase.FileSystem

variable {fs fs' : FileSystem} {purpose : Purpose} {dir loc loc' : Location} {n : Name}
  {prior steps : List Step} {place : Place} {p : Path} {id : Nat}

/-- A tree without symbolic links in which no file has two names. -/
structure Plain (fs : FileSystem) : Prop where
  no_link : ∀ loc target, fs.get? loc ≠ some (.link target)
  one_name : ∀ loc loc' id, fs.get? loc = some (.file id) → fs.get? loc' = some (.file id) → loc = loc'

/-- Whether a tree is plain can be read off its table. -/
theorem plain_of_entries (hkinds : ∀ row ∈ fs.entries, row.2 = .directory ∨ row.2.id?.isSome)
    (hnames : ∀ row ∈ fs.entries, ∀ row' ∈ fs.entries, row.2.id?.isSome → row.2 = row'.2 → row.1 = row'.1) :
    Plain fs where
  no_link := by
    intro loc target hlink
    rcases mem_entries_of_get? hlink with ⟨-, hdirectory⟩ | hmem
    · cases hdirectory
    · rcases hkinds _ hmem with hdirectory | hfile
      · cases hdirectory
      · cases hfile
  one_name := by
    intro loc loc' id h h'
    rcases mem_entries_of_get? h with ⟨-, hdirectory⟩ | hmem
    · cases hdirectory
    rcases mem_entries_of_get? h' with ⟨-, hdirectory⟩ | hmem'
    · cases hdirectory
    exact hnames _ hmem _ hmem' rfl rfl

/-- What is at a location, as the end of a lookup. -/
def placeAt (fs : FileSystem) (loc : Location) : Place :=
  match fs.get? loc with
  | some .directory => .directory loc
  | some (.file id) => .file id
  | _ => .vacant loc

theorem placeAt_of_none (hentry : fs.get? loc = none) : fs.placeAt loc = .vacant loc := by
  rw [placeAt, hentry]

theorem placeAt_of_directory (hentry : fs.get? loc = some .directory) : fs.placeAt loc = .directory loc := by
  rw [placeAt, hentry]

theorem placeAt_of_file (hentry : fs.get? loc = some (.file id)) : fs.placeAt loc = .file id := by
  rw [placeAt, hentry]

theorem Plain.get?_cases (hplain : Plain fs) (loc : Location) :
    fs.get? loc = none ∨ fs.get? loc = some .directory ∨ ∃ id, fs.get? loc = some (.file id) := by
  rcases hentry : fs.get? loc with _ | _ | id | target
  · exact Or.inl rfl
  · exact Or.inr (Or.inl rfl)
  · exact Or.inr (Or.inr ⟨id, rfl⟩)
  · exact absurd hentry (hplain.no_link loc target)

theorem get?_of_placeAt_file (hfile : fs.placeAt loc = .file id) : fs.get? loc = some (.file id) := by
  rw [placeAt] at hfile
  split at hfile
  · cases hfile
  · rename_i id' hentry
    obtain rfl := Place.file.inj hfile
    exact hentry
  · cases hfile

theorem eq_of_placeAt_vacant (hvacant : fs.placeAt loc = .vacant loc') : loc = loc' := by
  rw [placeAt] at hvacant
  split at hvacant
  · cases hvacant
  · cases hvacant
  · exact Place.vacant.inj hvacant

theorem Plain.placeAt_injective (hplain : Plain fs) (hplace : fs.placeAt loc = fs.placeAt loc') : loc = loc' := by
  rcases hplain.get?_cases loc with hentry | hentry | ⟨id, hentry⟩
  · rw [placeAt_of_none hentry] at hplace
    exact (eq_of_placeAt_vacant hplace.symm).symm
  · rw [placeAt_of_directory hentry, placeAt] at hplace
    split at hplace
    · exact Place.directory.inj hplace
    · cases hplace
    · cases hplace
  · rw [placeAt_of_file hentry] at hplace
    exact hplain.one_name loc loc' id hentry (get?_of_placeAt_file hplace.symm)

/-- The directory that steps lead to, in a tree without links. -/
def descend (fs : FileSystem) (dir : Location) : List Step → Option Location
  | [] => some dir
  | .here :: steps => fs.descend dir steps
  | .slash :: steps => fs.descend dir steps
  | .up :: steps => fs.descend dir.dropLast steps
  | .name n :: steps =>
    if n.length ≤ nameLimit ∧ fs.get? (dir ++ [n]) = some .directory then fs.descend (dir ++ [n]) steps else none

theorem descend_congr (hdirectory : ∀ loc, fs'.get? loc = some .directory ↔ fs.get? loc = some .directory)
    (dir : Location) (steps : List Step) : fs'.descend dir steps = fs.descend dir steps := by
  induction steps generalizing dir with
  | nil => rfl
  | cons step steps ih =>
    cases step with
    | name n => simp only [descend, hdirectory, ih]
    | here => exact ih dir
    | slash => exact ih dir
    | up => exact ih dir.dropLast

theorem Plain.advance_ne_atLink (hplain : Plain fs) {dir' : Location} {target : Path} {rest : List Step} :
    fs.advance purpose dir steps ≠ .atLink dir' target rest := by
  induction steps generalizing dir with
  | nil => simp [advance]
  | cons step steps ih =>
    cases step with
    | name n =>
      intro hlink
      obtain ⟨hslash, hlength, hentry⟩ := advance_name_cases (Progress.goes_of_atLink hlink)
      rw [advance_name fs dir hslash hlength] at hlink
      rcases hplain.get?_cases (dir ++ [n]) with hentry | hentry | ⟨id, hentry⟩
      · simp [hentry] at hlink
      · rw [hentry] at hlink
        exact ih hlink
      · simp [hentry] at hlink
    | here => exact ih
    | slash => exact ih
    | up => exact ih

theorem Plain.walk_eq_ok_iff (hplain : Plain fs) (links : Nat) :
    fs.walk purpose links dir steps = .ok place ↔ fs.advance purpose dir steps = .ended (.ok place) := by
  constructor
  · intro hwalk
    rcases walk_cases hwalk with hfirst | ⟨links', dir', target, rest, -, hlink, -⟩
    · exact hfirst
    · exact absurd hlink hplain.advance_ne_atLink
  · intro hfirst
    cases links <;> rw [walk, hfirst]

theorem advance_singleton_name (hplain : Plain fs) :
    fs.advance purpose dir [.name n] = .ended (.ok place) ↔ n.length ≤ nameLimit ∧ fs.placeAt (dir ++ [n]) = place := by
  by_cases hlength : nameLimit < n.length
  · simp [advance, hlength, Nat.not_le_of_lt hlength]
  rw [advance_name fs dir (by simp) hlength]
  rcases hplain.get?_cases (dir ++ [n]) with hentry | hentry | ⟨id, hentry⟩
  · simp [hentry, placeAt_of_none hentry, Nat.le_of_not_lt hlength]
  · simp [hentry, placeAt_of_directory hentry, Nat.le_of_not_lt hlength, advance]
  · simp [hentry, placeAt_of_file hentry, Nat.le_of_not_lt hlength]

theorem Plain.advance_concat_name (hplain : Plain fs) :
    fs.advance purpose dir (prior ++ [.name n]) = .ended (.ok place) ↔
      ∃ dir', fs.descend dir prior = some dir' ∧ n.length ≤ nameLimit ∧ fs.placeAt (dir' ++ [n]) = place := by
  induction prior generalizing dir with
  | nil => simp [descend, advance_singleton_name hplain]
  | cons step prior ih =>
    cases step with
    | name m =>
      rw [List.cons_append, descend]
      have hslash : ¬ (purpose = .creating ∧ prior ++ [.name n] = [.slash]) := by
        rintro ⟨-, hlast⟩
        cases prior <;> simp at hlast
      by_cases hlength : nameLimit < m.length
      · simp [advance, hslash, hlength, Nat.not_le_of_lt hlength]
      rw [advance_name fs dir hslash hlength]
      rcases hplain.get?_cases (dir ++ [m]) with hentry | hentry | ⟨id, hentry⟩
      · simp [hentry]
      · simp [hentry, Nat.le_of_not_lt hlength, ih]
      · simp [hentry]
    | here => exact ih
    | slash => exact ih
    | up => exact ih

/-- Where a path that ends in a name leads. -/
theorem Plain.lookup_eq_placeAt_iff (hplain : Plain fs) (hsteps : p.steps = prior ++ [.name n]) :
    fs.lookup purpose p = .ok place ↔
      (0 ∉ p ∧ p.length ≤ pathLimit ∧ p ≠ []) ∧
        ∃ dir, fs.descend (beginning fs.current p) prior = some dir ∧ n.length ≤ nameLimit ∧
          fs.placeAt (dir ++ [n]) = place := by
  rw [lookup_eq_ok_iff, hplain.walk_eq_ok_iff, hsteps, hplain.advance_concat_name, and_assoc, and_assoc]

/-! ### Creating a file -/

/-- The file that was created stands at the location that the path leads to, and nowhere else. -/
theorem Confined.get?_of_plain (h : Confined fs p fs' id) (hplain : Plain fs)
    (hlookup : fs.lookup .creating p = .ok (fs.placeAt loc)) :
    fs'.get? loc = some (.file id) ∧
      ∀ loc', loc' ≠ loc → fs'.get? loc' = fs.get? loc' ∧ fs.get? loc' ≠ some (.file id) := by
  rcases h.entries with ⟨hfile, hget⟩ | ⟨vacancy, hvacant, -, hnew, hentry, hold⟩
  · have hentry := get?_of_placeAt_file (Except.ok.inj (hlookup.symm.trans hfile))
    refine ⟨(hget loc).trans hentry, fun loc' hne => ⟨hget loc', fun hentry' => ?_⟩⟩
    exact hne (hplain.one_name loc' loc id hentry' hentry)
  · obtain rfl := eq_of_placeAt_vacant (Except.ok.inj (hlookup.symm.trans hvacant))
    exact ⟨hentry, fun loc' hne => ⟨hold loc' hne, hnew loc'⟩⟩

theorem Confined.item?_of_plain (h : Confined fs p fs' id) (hplain : Plain fs)
    (hlookup : fs.lookup .creating p = .ok (fs.placeAt loc)) :
    fs'.item? loc = some (.file (fs'.object id)) ∧ ∀ loc', loc' ≠ loc → fs'.item? loc' = fs.item? loc' := by
  obtain ⟨hself, hother⟩ := h.get?_of_plain hplain hlookup
  constructor
  · rw [item?, hself]
    rfl
  · intro loc' hne
    obtain ⟨hsame, hnot⟩ := hother loc' hne
    rw [item?, item?, hsame]
    rcases hentry : fs.get? loc' with _ | _ | id' | target
    · rfl
    · rfl
    · have hid : id' ≠ id := by
        rintro rfl
        exact hnot hentry
      simp only [Option.map_some, h.object id' hid]
    · rfl

theorem Confined.plain (h : Confined fs p fs' id) (hplain : Plain fs)
    (hlookup : fs.lookup .creating p = .ok (fs.placeAt loc)) : Plain fs' := by
  obtain ⟨hself, hother⟩ := h.get?_of_plain hplain hlookup
  have hlocation : ∀ {loc'}, fs'.get? loc' = some (.file id) → loc' = loc := by
    intro loc' hentry
    by_cases hloc : loc' = loc
    · exact hloc
    · obtain ⟨hsame, hnot⟩ := hother loc' hloc
      exact absurd (hsame ▸ hentry) hnot
  constructor
  · intro loc' target
    by_cases hloc : loc' = loc
    · rw [hloc, hself]
      simp
    · rw [(hother loc' hloc).1]
      exact hplain.no_link loc' target
  · intro loc₁ loc₂ id' h₁ h₂
    by_cases hid : id' = id
    · rw [hid] at h₁ h₂
      rw [hlocation h₁, hlocation h₂]
    · have hne : ∀ {loc'}, fs'.get? loc' = some (.file id') → loc' ≠ loc := by
        rintro loc' hentry rfl
        rw [hself] at hentry
        exact hid (Entry.file.inj (Option.some.inj hentry)).symm
      rw [(hother loc₁ (hne h₁)).1] at h₁
      rw [(hother loc₂ (hne h₂)).1] at h₂
      exact hplain.one_name loc₁ loc₂ id' h₁ h₂

end AnyCase.FileSystem
