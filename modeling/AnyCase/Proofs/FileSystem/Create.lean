import AnyCase.Proofs.FileSystem.Lookup

/-!
# What creating a file changes

A file that is created, and then written, is the only one that changes (`Confined`). Whoever read something before
reads the same afterwards, unless it was in that file.
-/

/-!
## One file at most

Creating a file, and writing to it afterwards, is confined to the file that the path leads to. No other file
object, no directory and no link is touched, nothing is renamed or removed, and the one entry that may be new
stands at the place that the path leads to, through dangling links if there are any.
-/

namespace AnyCase.FileSystem

variable {fs fs' : FileSystem} {p : Path} {loc : Location} {id : Nat}

/-! ### New numbers -/

theorem le_foldl_bound (ids : List Nat) (start : Nat) :
    start ≤ ids.foldl (fun bound id => max bound (id + 1)) start := by
  induction ids generalizing start with
  | nil => exact Nat.le_refl _
  | cons id' ids ih =>
    have hnext := ih (max start (id' + 1))
    rw [List.foldl_cons]
    omega

theorem lt_foldl_bound {ids : List Nat} (hid : id ∈ ids) (start : Nat) :
    id < ids.foldl (fun bound id => max bound (id + 1)) start := by
  induction ids generalizing start with
  | nil => cases hid
  | cons id' ids ih =>
    rw [List.foldl_cons]
    rcases List.mem_cons.mp hid with rfl | hid
    · have hnext := le_foldl_bound ids (max start (id + 1))
      omega
    · exact ih hid _

theorem mem_entries_of_get? {e : Entry} (hentry : fs.get? loc = some e) :
    loc = [] ∧ e = .directory ∨ (loc, e) ∈ fs.entries := by
  rw [get?] at hentry
  split at hentry
  · rename_i hroot
    exact Or.inl ⟨hroot, (Option.some.inj hentry).symm⟩
  · obtain ⟨before, after, htable, -⟩ := List.lookup_eq_some_iff.mp hentry
    rw [htable]
    exact Or.inr (List.mem_append_right before List.mem_cons_self)

theorem lt_freshId (hentry : fs.get? loc = some (.file id)) : id < fs.freshId := by
  rcases mem_entries_of_get? hentry with ⟨-, hdirectory⟩ | hmem
  · cases hdirectory
  · exact lt_foldl_bound (List.mem_filterMap.mpr ⟨(loc, .file id), hmem, rfl⟩) 0

theorem get?_ne_freshId (fs : FileSystem) (loc : Location) : fs.get? loc ≠ some (.file fs.freshId) := by
  intro hentry
  exact Nat.lt_irrefl _ (lt_freshId hentry)

/-! ### Creating -/

theorem exists_lookup_of_opened {opened : Opened} (hopened : fs.openForReading p = .ok opened) :
    ∃ place, fs.lookup .reading p = .ok place := by
  rcases hlookup : fs.lookup .reading p with f | place
  · rw [openForReading, hlookup] at hopened
    cases hopened
  · exact ⟨place, rfl⟩

/-- What creating a file can do: empty the one that is there, or make one in a vacant place. -/
theorem create_cases (hcreate : fs.create p = .ok (fs', id)) :
    fs.lookup .creating p = .ok (.file id) ∧ fs' = fs.setObject id (fs.object id).truncate ∨
      ∃ loc, fs.lookup .creating p = .ok (.vacant loc) ∧ id = fs.freshId ∧
        fs' = (fs.setEntry loc (.file id)).setObject id (.regular []) := by
  rcases hlookup : fs.lookup .creating p with f | _ | id' | loc
  · simp [create, hlookup, bind, Except.bind] at hcreate
  · simp [create, hlookup, bind, Except.bind, throw, throwThe, MonadExceptOf.throw] at hcreate
  · simp only [create, hlookup, bind, Except.bind, pure, Except.pure, Except.ok.injEq, Prod.mk.injEq] at hcreate
    obtain ⟨rfl, rfl⟩ := hcreate
    exact Or.inl ⟨rfl, rfl⟩
  · simp only [create, hlookup, bind, Except.bind, pure, Except.pure, newFile, Except.ok.injEq,
      Prod.mk.injEq] at hcreate
    obtain ⟨rfl, rfl⟩ := hcreate
    exact Or.inr ⟨loc, rfl, rfl, rfl⟩

theorem lookup_of_create {purpose : Purpose} {q : Path} (hcreate : fs.create p = .ok (fs', id))
    (hknown : fs.lookup purpose q = .ok (.file id)) : fs.lookup .creating p = .ok (.file id) := by
  rcases create_cases hcreate with ⟨hlookup, -⟩ | ⟨loc, -, rfl, -⟩
  · exact hlookup
  · obtain ⟨loc', hentry⟩ := get?_of_lookup_file hknown
    exact absurd hentry (get?_ne_freshId fs loc')

theorem create_of_lookup (hlookup : fs.lookup .creating p = .ok (.file id)) :
    fs.create p = .ok (fs.setObject id (fs.object id).truncate, id) := by
  simp only [create, hlookup, bind, Except.bind, pure, Except.pure]

/-- A file is empty when it was created just now. -/
theorem truncate_object_of_create (hcreate : fs.create p = .ok (fs', id)) :
    (fs'.object id).truncate = fs'.object id := by
  rcases create_cases hcreate with ⟨-, rfl⟩ | ⟨loc, -, -, rfl⟩
  · rw [object_setObject_self, FileObject.truncate_truncate]
  · rw [object_setObject_self, FileObject.truncate]

/-- `fs'` differs from `fs` by nothing but the file `id`, which the path `p` leads to. The path led to it
before; or it led to a vacant place, where the file is new and has its only name. -/
structure Confined (fs : FileSystem) (p : Path) (fs' : FileSystem) (id : Nat) : Prop where
  current : fs'.current = fs.current
  object : ∀ id', id' ≠ id → fs'.object id' = fs.object id'
  leads : ∀ purpose, fs'.lookup purpose p = .ok (.file id)
  entries :
    (fs.lookup .creating p = .ok (.file id) ∧ ∀ loc, fs'.get? loc = fs.get? loc) ∨
      ∃ loc, fs.lookup .creating p = .ok (.vacant loc) ∧ fs.get? loc = none ∧
        (∀ loc', fs.get? loc' ≠ some (.file id)) ∧ fs'.get? loc = some (.file id) ∧
        ∀ loc', loc' ≠ loc → fs'.get? loc' = fs.get? loc'

theorem lookup_setObject (fs : FileSystem) (id : Nat) (o : FileObject) (purpose : Purpose) (p : Path) :
    (fs.setObject id o).lookup purpose p = fs.lookup purpose p := by
  have hcurrent : (fs.setObject id o).current = fs.current := rfl
  exact lookup_congr hcurrent (get?_setObject fs id o) purpose p

theorem Confined.setObject (h : Confined fs p fs' id) (o : FileObject) :
    Confined fs p (fs'.setObject id o) id where
  current := h.current
  object := by
    intro id' hne
    rw [object_setObject_of_ne fs' o hne]
    exact h.object id' hne
  leads := by
    intro purpose
    rw [lookup_setObject]
    exact h.leads purpose
  entries := h.entries

theorem leads_of_creating (hlookup : fs.lookup .creating p = .ok (.file id)) (purpose : Purpose) :
    fs.lookup purpose p = .ok (.file id) := by
  cases purpose with
  | reading => exact lookup_reading hlookup
  | creating => exact hlookup

theorem confined_refl (hlookup : fs.lookup .creating p = .ok (.file id)) : Confined fs p fs id where
  current := rfl
  object _ _ := rfl
  leads := leads_of_creating hlookup
  entries := Or.inl ⟨hlookup, fun _ => rfl⟩

theorem confined_setEntry (hvacant : fs.lookup .creating p = .ok (.vacant loc)) :
    Confined fs p (fs.setEntry loc (.file fs.freshId)) fs.freshId := by
  obtain ⟨hne, hfree⟩ := get?_of_lookup_vacant hvacant
  have hlookup := lookup_setEntry hfree fs.freshId hvacant
  rw [Place.fill_vacant_self] at hlookup
  exact {
    current := rfl
    object := fun _ _ => rfl
    leads := leads_of_creating hlookup
    entries := Or.inr ⟨loc, hvacant, hfree, get?_ne_freshId fs, get?_setEntry_self fs _ hne,
      fun loc' hloc' => get?_setEntry_of_ne fs _ hloc'⟩ }

theorem confined_create (hcreate : fs.create p = .ok (fs', id)) : Confined fs p fs' id := by
  rcases create_cases hcreate with ⟨hlookup, rfl⟩ | ⟨loc, hvacant, rfl, rfl⟩
  · exact (confined_refl hlookup).setObject _
  · exact (confined_setEntry hvacant).setObject _

/-! ### Creating again -/

/-- The row of the file that was created is the last one that was set, so setting it to what it is changes nothing. -/
theorem setObject_object_of_create (hcreate : fs.create p = .ok (fs', id)) :
    fs'.setObject id (fs'.object id) = fs' := by
  rcases create_cases hcreate with ⟨-, rfl⟩ | ⟨loc, -, -, rfl⟩
  · rw [object_setObject_self, setObject_setObject]
  · rw [object_setObject_self, setObject_setObject]

/-- Creating a file again that has got some content empties it, and nothing else is left of the first time. -/
theorem create_setObject (hcreate : fs.create p = .ok (fs', id)) {o : FileObject}
    (ho : o.truncate = fs'.object id) : (fs'.setObject id o).create p = .ok (fs', id) := by
  have hleads := ((confined_create hcreate).setObject o).leads .creating
  rw [create_of_lookup hleads, object_setObject_self, setObject_setObject, ho, setObject_object_of_create hcreate]

-- The link `a` dangles; what it means is made.
example :
    (FileSystem.mk [([[0x61]], .link [0x62])] [] []).create [0x61] =
      .ok (FileSystem.mk [([[0x62]], .file 0), ([[0x61]], .link [0x62])] [(0, .regular [])] [], 0) := by
  rfl

/-!
## What readers find

`content?` is what can be read through a path: it asks for the file object that the path leads to, so two
paths that lead to one object show the same content, be it by links or by names.

A change that is confined to one file object leaves every lookup that found a file or a directory as it was
(`Confined.lookup_of_ne_vacant`), and with it what readers find there.
-/

variable {q : Path} {id' : Nat} {content : Bytes}

/-- The content of the regular file that a path leads to, if it does. -/
def content? (fs : FileSystem) (p : Path) : Option Bytes :=
  match fs.openForReading p with
  | .ok (.file id) =>
    match fs.object id with
    | .regular content => some content
    | _ => none
  | _ => none

theorem openForReading_eq_file_iff :
    fs.openForReading p = .ok (.file id) ↔ fs.lookup .reading p = .ok (.file id) := by
  rcases hlookup : fs.lookup .reading p with f | loc | id' | loc <;>
    simp [openForReading, hlookup, bind, Except.bind, pure, Except.pure, throw, throwThe, MonadExceptOf.throw]

theorem content?_of_lookup (hlookup : fs.lookup .reading p = .ok (.file id))
    (hobject : fs.object id = .regular content) : fs.content? p = some content := by
  rw [content?, openForReading_eq_file_iff.mpr hlookup]
  simp only [hobject]

theorem content?_eq_some_iff :
    fs.content? p = some content ↔
      ∃ id, fs.lookup .reading p = .ok (.file id) ∧ fs.object id = .regular content := by
  constructor
  · intro hcontent
    rw [content?] at hcontent
    split at hcontent
    · rename_i id hopened
      split at hcontent
      · rename_i content' hobject
        obtain rfl := Option.some.inj hcontent
        exact ⟨id, openForReading_eq_file_iff.mp hopened, hobject⟩
      · cases hcontent
    · cases hcontent
  · rintro ⟨id, hlookup, hobject⟩
    exact content?_of_lookup hlookup hobject

theorem openForReading_eq_directory_iff :
    fs.openForReading p = .ok .directory ↔ ∃ loc, fs.lookup .reading p = .ok (.directory loc) := by
  rcases hlookup : fs.lookup .reading p with f | loc | id | loc <;>
    simp [openForReading, hlookup, bind, Except.bind, pure, Except.pure, throw, throwThe, MonadExceptOf.throw]

/-- The place that was vacant is the only one where a lookup can come to something else. -/
theorem Confined.lookup_of_ne_vacant (h : Confined fs p fs' id) {purpose : Purpose} {place : Place}
    (hplace : ∀ loc, place ≠ .vacant loc) (hlookup : fs.lookup purpose q = .ok place) :
    fs'.lookup purpose q = .ok place := by
  rcases h.entries with ⟨-, hget⟩ | ⟨loc, hvacant, hfree, -, hnew, hold⟩
  · rw [lookup_congr h.current hget, hlookup]
  · have hne := (get?_of_lookup_vacant hvacant).1
    have hget : ∀ loc', fs'.get? loc' = (fs.setEntry loc (.file id)).get? loc' := by
      intro loc'
      by_cases hloc : loc' = loc
      · rw [hloc, hnew, get?_setEntry_self fs _ hne]
      · rw [hold loc' hloc, get?_setEntry_of_ne fs _ hloc]
    have hcurrent : fs'.current = (fs.setEntry loc (.file id)).current := h.current
    rw [lookup_congr hcurrent hget, lookup_setEntry hfree id hlookup, Place.fill_of_ne_vacant hplace]

theorem Confined.lookup_file (h : Confined fs p fs' id) {purpose : Purpose}
    (hlookup : fs.lookup purpose q = .ok (.file id')) : fs'.lookup purpose q = .ok (.file id') :=
  h.lookup_of_ne_vacant (fun _ => Place.noConfusion) hlookup

/-- What could be opened before can be opened afterwards, and is the same. -/
theorem Confined.openForReading (h : Confined fs p fs' id) {opened : Opened}
    (hopened : fs.openForReading q = .ok opened) : fs'.openForReading q = .ok opened := by
  cases opened with
  | directory =>
    obtain ⟨loc, hlookup⟩ := openForReading_eq_directory_iff.mp hopened
    apply openForReading_eq_directory_iff.mpr
    exact ⟨loc, h.lookup_of_ne_vacant (fun _ => Place.noConfusion) hlookup⟩
  | file id' =>
    apply openForReading_eq_file_iff.mpr
    exact h.lookup_file (openForReading_eq_file_iff.mp hopened)

theorem Confined.content?_self (h : Confined fs p fs' id) (hobject : fs'.object id = .regular content) :
    fs'.content? p = some content :=
  content?_of_lookup (h.leads .reading) hobject

theorem Confined.content?_of_ne (h : Confined fs p fs' id) (hlookup : fs.lookup .reading q = .ok (.file id'))
    (hobject : fs.object id' = .regular content) (hne : id' ≠ id) : fs'.content? q = some content := by
  refine content?_of_lookup (h.lookup_file hlookup) ?_
  rw [h.object id' hne, hobject]

end AnyCase.FileSystem
