import AnyCase.FileSystem.Lookup

/-!
# What lookups depend on

A lookup reads entries only, and nothing of the file objects behind them (`lookup_congr`). When a file is put
into a place that was vacant, a lookup that ended there ends at the file, and every other one that had a result
keeps it (`lookup_setEntry`): a walk meets the place at its end only, since it cannot go on from there. A path that
leads readers to a file leads to it for creating as well (`lookup_file_iff`): the purposes differ only over places
that are no files.
-/

namespace AnyCase

/-- The place that `place` becomes when the file `id` is put at the location `loc`. -/
def Place.fill (loc : Location) (id : Nat) : Place → Place
  | .vacant vacancy => if vacancy = loc then .file id else .vacant vacancy
  | place => place

@[simp] theorem Place.fill_file (loc : Location) (id id' : Nat) :
    (Place.file id').fill loc id = .file id' := rfl

@[simp] theorem Place.fill_vacant_self (loc : Location) (id : Nat) :
    (Place.vacant loc).fill loc id = .file id := if_pos rfl

theorem Place.fill_vacant_of_ne {loc vacancy : Location} (hne : vacancy ≠ loc) (id : Nat) :
    (Place.vacant vacancy).fill loc id = .vacant vacancy := if_neg hne

theorem Place.fill_of_ne_vacant {place : Place} (hplace : ∀ vacancy, place ≠ .vacant vacancy) (loc : Location)
    (id : Nat) : place.fill loc id = place := by
  cases place with
  | directory _ => rfl
  | file _ => rfl
  | vacant vacancy => exact absurd rfl (hplace vacancy)

namespace FileSystem

variable {fs fs' : FileSystem}

/-! ### Lookups read entries only -/

theorem advance_congr (hget : ∀ loc, fs'.get? loc = fs.get? loc) (purpose : Purpose) (dir : Location)
    (steps : List Step) : fs'.advance purpose dir steps = fs.advance purpose dir steps := by
  induction steps generalizing dir with
  | nil => rfl
  | cons step rest ih =>
    cases step with
    | name n => simp only [advance, hget, ih]
    | here => exact ih dir
    | slash => exact ih dir
    | up => exact ih dir.dropLast

theorem walk_congr (hget : ∀ loc, fs'.get? loc = fs.get? loc) (purpose : Purpose) (links : Nat) (dir : Location)
    (steps : List Step) : fs'.walk purpose links dir steps = fs.walk purpose links dir steps := by
  induction links generalizing dir steps with
  | zero => rw [walk, walk, advance_congr hget]
  | succ links ih => simp only [walk, advance_congr hget, ih]

theorem lookup_congr (hcurrent : fs'.current = fs.current) (hget : ∀ loc, fs'.get? loc = fs.get? loc)
    (purpose : Purpose) (p : Path) : fs'.lookup purpose p = fs.lookup purpose p := by
  rw [lookup, lookup, hcurrent, walk_congr hget]

/-! ### The part of a walk before the first link -/

/-- It came to a place or a link. -/
def Progress.Goes (progress : Progress) : Prop :=
  ∀ e, progress ≠ .ended (.error e)

theorem Progress.goes_of_ended_ok {progress : Progress} {place : Place} (h : progress = .ended (.ok place)) :
    progress.Goes := by
  intro e he
  cases h.symm.trans he

theorem Progress.goes_of_atLink {progress : Progress} {dir : Location} {target : Path} {rest : List Step}
    (h : progress = .atLink dir target rest) : progress.Goes := by
  intro e he
  cases h.symm.trans he

/-- The same way to another place. -/
def Progress.map (move : Place → Place) : Progress → Progress
  | .ended result => .ended (result.map move)
  | .atLink dir target rest => .atLink dir target rest

variable {purpose purpose' : Purpose} {dir loc : Location} {n : Name} {rest steps : List Step}

theorem advance_name (fs : FileSystem) (dir : Location) (hslash : ¬ (purpose = .creating ∧ rest = [.slash]))
    (hlength : ¬ nameLimit < n.length) :
    fs.advance purpose dir (.name n :: rest) =
      match fs.get? (dir ++ [n]) with
      | none => .ended (if rest.isEmpty then .ok (.vacant (dir ++ [n])) else .error .notFound)
      | some .directory => fs.advance purpose (dir ++ [n]) rest
      | some (.file id) => .ended (if rest.isEmpty then .ok (.file id) else .error .notDirectory)
      | some (.link target) => .atLink dir target rest := by
  rcases hentry : fs.get? (dir ++ [n]) with _ | _ | _ | _ <;>
    simp only [advance, if_neg hslash, if_neg hlength, hentry]

theorem advance_name_cases (hgoes : (fs.advance purpose dir (.name n :: rest)).Goes) :
    ¬ (purpose = .creating ∧ rest = [.slash]) ∧ ¬ nameLimit < n.length ∧
      (fs.get? (dir ++ [n]) = none ∧ rest = [] ∨
        fs.get? (dir ++ [n]) = some .directory ∧ (fs.advance purpose (dir ++ [n]) rest).Goes ∨
        (∃ id, fs.get? (dir ++ [n]) = some (.file id)) ∧ rest = [] ∨
        ∃ target, fs.get? (dir ++ [n]) = some (.link target)) := by
  by_cases hslash : purpose = .creating ∧ rest = [.slash]
  · rw [advance, if_pos hslash] at hgoes
    exact absurd rfl (hgoes .isDirectory)
  by_cases hlength : nameLimit < n.length
  · rw [advance, if_neg hslash, if_pos hlength] at hgoes
    exact absurd rfl (hgoes .nameTooLong)
  refine ⟨hslash, hlength, ?_⟩
  rw [advance_name fs dir hslash hlength] at hgoes
  rcases hentry : fs.get? (dir ++ [n]) with _ | _ | id | target
  · cases rest with
    | nil => exact Or.inl ⟨rfl, rfl⟩
    | cons step rest => exact absurd (by simp [hentry]) (hgoes .notFound)
  · rw [hentry] at hgoes
    exact Or.inr (Or.inl ⟨rfl, hgoes⟩)
  · cases rest with
    | nil => exact Or.inr (Or.inr (Or.inl ⟨⟨id, rfl⟩, rfl⟩))
    | cons step rest => exact absurd (by simp [hentry]) (hgoes .notDirectory)
  · exact Or.inr (Or.inr (Or.inr ⟨target, rfl⟩))

/-- What is looked up to be created is found there by readers, too. -/
theorem advance_reading (hgoes : (fs.advance .creating dir steps).Goes) :
    fs.advance .reading dir steps = (fs.advance .creating dir steps).map id := by
  induction steps generalizing dir with
  | nil => rfl
  | cons step rest ih =>
    cases step with
    | name n =>
      obtain ⟨hslash, hlength, hentry⟩ := advance_name_cases hgoes
      rw [advance_name fs dir hslash hlength, advance_name fs dir (by simp) hlength]
      rcases hentry with ⟨hentry, rfl⟩ | ⟨hentry, hnext⟩ | ⟨⟨id, hentry⟩, rfl⟩ | ⟨target, hentry⟩
      · rw [hentry]
        rfl
      · rw [hentry]
        exact ih hnext
      · rw [hentry]
        rfl
      · rw [hentry]
        rfl
    | here => exact ih hgoes
    | slash => exact ih hgoes
    | up => exact ih hgoes

/-- What the entries say of a place that a walk came to. -/
def Attests (fs : FileSystem) : Place → Prop
  | .directory _ => True
  | .file id => ∃ loc, fs.get? loc = some (.file id)
  | .vacant loc => loc ≠ [] ∧ fs.get? loc = none

theorem attests_of_advance {place : Place} (hended : fs.advance purpose dir steps = .ended (.ok place)) :
    fs.Attests place := by
  induction steps generalizing dir with
  | nil =>
    obtain rfl : Place.directory dir = place := by simpa [advance] using hended
    trivial
  | cons step rest ih =>
    cases step with
    | name n =>
      have hgoes : (fs.advance purpose dir (.name n :: rest)).Goes := Progress.goes_of_ended_ok hended
      obtain ⟨hslash, hlength, hentry⟩ := advance_name_cases hgoes
      rw [advance_name fs dir hslash hlength] at hended
      rcases hentry with ⟨hentry, rfl⟩ | ⟨hentry, -⟩ | ⟨⟨id, hentry⟩, rfl⟩ | ⟨target, hentry⟩
      · obtain rfl : Place.vacant (dir ++ [n]) = place := by simpa [hentry] using hended
        exact ⟨by simp, hentry⟩
      · rw [hentry] at hended
        exact ih hended
      · obtain rfl : Place.file id = place := by simpa [hentry] using hended
        exact ⟨dir ++ [n], hentry⟩
      · simp [hentry] at hended
    | here => exact ih hended
    | slash => exact ih hended
    | up => exact ih hended

theorem advance_setEntry (hfree : fs.get? loc = none) (id : Nat) (hgoes : (fs.advance purpose dir steps).Goes) :
    (fs.setEntry loc (.file id)).advance purpose dir steps =
      (fs.advance purpose dir steps).map (Place.fill loc id) := by
  induction steps generalizing dir with
  | nil => rfl
  | cons step rest ih =>
    cases step with
    | name n =>
      obtain ⟨hslash, hlength, hentry⟩ := advance_name_cases hgoes
      rw [advance_name fs dir hslash hlength, advance_name _ dir hslash hlength]
      by_cases hloc : dir ++ [n] = loc
      · subst hloc
        have hself : (fs.setEntry (dir ++ [n]) (.file id)).get? (dir ++ [n]) = some (.file id) :=
          get?_setEntry_self fs (.file id) (by simp)
        rcases hentry with ⟨hentry, rfl⟩ | ⟨hentry, -⟩ | ⟨⟨id', hentry⟩, rfl⟩ | ⟨target, hentry⟩
        · simp [hself, hentry, Progress.map, Except.map]
        all_goals simp [hfree] at hentry
      · rw [get?_setEntry_of_ne fs (.file id) hloc]
        rcases hentry with ⟨hentry, rfl⟩ | ⟨hentry, hnext⟩ | ⟨⟨id', hentry⟩, rfl⟩ | ⟨target, hentry⟩
        · simp [hentry, Progress.map, Except.map, Place.fill_vacant_of_ne hloc]
        · rw [hentry]
          exact ih hnext
        · simp [hentry, Progress.map, Except.map]
        · rw [hentry]
          rfl
    | here => exact ih hgoes
    | slash => exact ih hgoes
    | up => exact ih hgoes

/-! ### Whole walks -/

/-- A walk that comes to a place does so before the first link, or behind it. -/
theorem walk_cases {links : Nat} {place : Place} (hwalk : fs.walk purpose links dir steps = .ok place) :
    fs.advance purpose dir steps = .ended (.ok place) ∨
      ∃ links' dir' target rest, links = links' + 1 ∧ fs.advance purpose dir steps = .atLink dir' target rest ∧
        fs.walk purpose links' (beginning dir' target) (target.steps ++ rest) = .ok place := by
  rcases hfirst : fs.advance purpose dir steps with ⟨result⟩ | ⟨dir', target, rest⟩
  · have hresult : fs.walk purpose links dir steps = result := by
      cases links <;> rw [walk, hfirst]
    exact Or.inl (by rw [← hresult, hwalk])
  · cases links with
    | zero => simp [walk, hfirst] at hwalk
    | succ links =>
      simp only [walk, hfirst] at hwalk
      exact Or.inr ⟨links, dir', target, rest, rfl, rfl, hwalk⟩

/-- Two walks that agree up to every link, but for the place they come to, agree as a whole. -/
theorem walk_map {move : Place → Place}
    (hadvance : ∀ dir steps, (fs.advance purpose dir steps).Goes →
      fs'.advance purpose' dir steps = (fs.advance purpose dir steps).map move)
    {links : Nat} {place : Place} (hwalk : fs.walk purpose links dir steps = .ok place) :
    fs'.walk purpose' links dir steps = .ok (move place) := by
  induction links using Nat.strongRecOn generalizing dir steps with
  | ind links ih =>
    rcases walk_cases hwalk with hfirst | ⟨links', dir', target, rest, rfl, hfirst, hrest⟩
    · have hfirst' := hadvance dir steps (Progress.goes_of_ended_ok hfirst)
      rw [hfirst] at hfirst'
      cases links <;> rw [walk, hfirst'] <;> rfl
    · have hfirst' := hadvance dir steps (Progress.goes_of_atLink hfirst)
      rw [hfirst] at hfirst'
      rw [walk, hfirst']
      exact ih links' (Nat.lt_succ_self links') hrest

theorem exists_advance_of_walk {links : Nat} {place : Place}
    (hwalk : fs.walk purpose links dir steps = .ok place) :
    ∃ dir' steps', fs.advance purpose dir' steps' = .ended (.ok place) := by
  induction links using Nat.strongRecOn generalizing dir steps with
  | ind links ih =>
    rcases walk_cases hwalk with hfirst | ⟨links', dir', target, rest, rfl, -, hrest⟩
    · exact ⟨dir, steps, hfirst⟩
    · exact ih links' (Nat.lt_succ_self links') hrest

theorem mapError_eq_ok_iff {ε ε' α : Type} {f : ε → ε'} {result : Except ε α} {a : α} :
    result.mapError f = .ok a ↔ result = .ok a := by
  cases result with
  | error e =>
    have herror : (Except.error e : Except ε α).mapError f = .error (f e) := rfl
    simp [herror]
  | ok a' =>
    have hok : (Except.ok a' : Except ε α).mapError f = .ok a' := rfl
    simp [hok]

theorem lookup_eq_ok_iff {p : Path} {place : Place} :
    fs.lookup purpose p = .ok place ↔
      0 ∉ p ∧ p.length ≤ pathLimit ∧ p ≠ [] ∧
        fs.walk purpose linkLimit (beginning fs.current p) p.steps = .ok place := by
  rw [lookup]
  by_cases hzero : 0 ∈ p
  · simp [hzero]
  by_cases hlong : pathLimit < p.length
  · simp [hzero, hlong, Nat.not_le_of_lt hlong]
  by_cases hempty : p = []
  · simp [hempty]
  · simp [hzero, hempty, hlong, Nat.le_of_not_lt hlong, mapError_eq_ok_iff]

theorem lookup_map {move : Place → Place} (hcurrent : fs'.current = fs.current)
    (hadvance : ∀ dir steps, (fs.advance purpose dir steps).Goes →
      fs'.advance purpose' dir steps = (fs.advance purpose dir steps).map move)
    {p : Path} {place : Place} (hlookup : fs.lookup purpose p = .ok place) :
    fs'.lookup purpose' p = .ok (move place) := by
  obtain ⟨hzero, hlength, hne, hwalk⟩ := lookup_eq_ok_iff.mp hlookup
  rw [lookup_eq_ok_iff, hcurrent]
  exact ⟨hzero, hlength, hne, walk_map hadvance hwalk⟩

theorem lookup_reading {p : Path} {place : Place} (hlookup : fs.lookup .creating p = .ok place) :
    fs.lookup .reading p = .ok place :=
  lookup_map rfl (fun _ _ => advance_reading) hlookup

/-! ### Lookups of files -/

/-- The walk comes to no file here, because a slash is among the steps that are left, or was among those it took. -/
def Progress.EndsInSlash : Progress → Prop
  | .ended result => ∀ id, result ≠ .ok (.file id)
  | .atLink _ _ rest => ∃ rest', rest = rest' ++ [.slash]

theorem advance_concat_slash (fs : FileSystem) (purpose : Purpose) (dir : Location) (steps : List Step) :
    (fs.advance purpose dir (steps ++ [.slash])).EndsInSlash := by
  induction steps generalizing dir with
  | nil =>
    intro id hfile
    exact Place.noConfusion (Except.ok.inj hfile)
  | cons step rest ih =>
    cases step with
    | name n =>
      have hrest : (rest ++ [Step.slash]).isEmpty = false := by simp
      rw [List.cons_append, advance]
      split
      · simp [Progress.EndsInSlash]
      split
      · simp [Progress.EndsInSlash]
      cases fs.get? (dir ++ [n]) with
      | none => simp [hrest, Progress.EndsInSlash]
      | some e =>
        cases e with
        | directory => exact ih (dir ++ [n])
        | file id => simp [hrest, Progress.EndsInSlash]
        | link target => exact ⟨rest, rfl⟩
    | here => exact ih dir
    | slash => exact ih dir
    | up => exact ih dir.dropLast

theorem walk_concat_slash {links : Nat} {id : Nat} :
    fs.walk purpose links dir (steps ++ [.slash]) ≠ .ok (.file id) := by
  intro hwalk
  induction links using Nat.strongRecOn generalizing dir steps with
  | ind links ih =>
    have hslash := advance_concat_slash fs purpose dir steps
    rcases walk_cases hwalk with hfirst | ⟨links', dir', target, rest, rfl, hfirst, hrest⟩
    · rw [hfirst] at hslash
      exact hslash id rfl
    · rw [hfirst] at hslash
      obtain ⟨rest', rfl⟩ := hslash
      rw [← List.append_assoc] at hrest
      exact ih links' (Nat.lt_succ_self links') hrest

/-- Only a slash behind the last name makes a difference to who looks for a file to be created. -/
theorem advance_creating (hfile : ¬ (fs.advance .reading dir steps).EndsInSlash) :
    fs.advance .creating dir steps = fs.advance .reading dir steps := by
  induction steps generalizing dir with
  | nil => rfl
  | cons step rest ih =>
    cases step with
    | name n =>
      have hslash : rest ≠ [.slash] := by
        rintro rfl
        exact hfile (advance_concat_slash fs .reading dir [.name n])
      by_cases hlength : nameLimit < n.length
      · simp [advance, hslash, hlength]
      rw [advance_name fs dir (by simp) hlength] at hfile
      rw [advance_name fs dir (by simp [hslash]) hlength, advance_name fs dir (by simp) hlength]
      cases hentry : fs.get? (dir ++ [n]) with
      | none => rfl
      | some e =>
        cases e with
        | directory =>
          rw [hentry] at hfile
          exact ih hfile
        | file id => rfl
        | link target => rfl
    | here => exact ih hfile
    | slash => exact ih hfile
    | up => exact ih hfile

theorem walk_creating {links : Nat} {id : Nat} (hwalk : fs.walk .reading links dir steps = .ok (.file id)) :
    fs.walk .creating links dir steps = .ok (.file id) := by
  induction links using Nat.strongRecOn generalizing dir steps with
  | ind links ih =>
    rcases walk_cases hwalk with hfirst | ⟨links', dir', target, rest, rfl, hfirst, hrest⟩
    · have hfile : ¬ (fs.advance .reading dir steps).EndsInSlash := by
        rw [hfirst]
        exact fun hslash => hslash id rfl
      have hcreating := (advance_creating hfile).trans hfirst
      cases links <;> rw [walk, hcreating]
    · have hfile : ¬ (fs.advance .reading dir steps).EndsInSlash := by
        rw [hfirst]
        rintro ⟨rest', rfl⟩
        rw [← List.append_assoc] at hrest
        exact walk_concat_slash hrest
      rw [walk, advance_creating hfile, hfirst]
      exact ih links' (Nat.lt_succ_self links') hrest

/-- A file that readers find at a path is the one that creating the path comes to. -/
theorem lookup_file_iff {p : Path} {id : Nat} :
    fs.lookup .creating p = .ok (.file id) ↔ fs.lookup .reading p = .ok (.file id) := by
  constructor
  · exact lookup_reading
  · intro hlookup
    obtain ⟨hzero, hlength, hne, hwalk⟩ := lookup_eq_ok_iff.mp hlookup
    exact lookup_eq_ok_iff.mpr ⟨hzero, hlength, hne, walk_creating hwalk⟩

/-! ### Entries that lookups meet -/

/-- A file that is put into a free place is what a lookup that ended there finds; no other one that found
something is affected. -/
theorem lookup_setEntry (hfree : fs.get? loc = none) (id : Nat) {p : Path} {place : Place}
    (hlookup : fs.lookup purpose p = .ok place) :
    (fs.setEntry loc (.file id)).lookup purpose p = .ok (place.fill loc id) := by
  have hcurrent : (fs.setEntry loc (.file id)).current = fs.current := rfl
  exact lookup_map hcurrent (fun _ _ => advance_setEntry hfree id) hlookup

theorem attests_of_lookup {p : Path} {place : Place} (hlookup : fs.lookup purpose p = .ok place) :
    fs.Attests place := by
  obtain ⟨-, -, -, hwalk⟩ := lookup_eq_ok_iff.mp hlookup
  obtain ⟨dir, steps, hadvance⟩ := exists_advance_of_walk hwalk
  exact attests_of_advance hadvance

theorem get?_of_lookup_vacant {p : Path} (hvacant : fs.lookup purpose p = .ok (.vacant loc)) :
    loc ≠ [] ∧ fs.get? loc = none :=
  attests_of_lookup hvacant

theorem get?_of_lookup_file {p : Path} {id : Nat} (hfile : fs.lookup purpose p = .ok (.file id)) :
    ∃ loc, fs.get? loc = some (.file id) :=
  attests_of_lookup hfile

end FileSystem

end AnyCase
