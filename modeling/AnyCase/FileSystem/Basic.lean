import AnyCase.Stream.Basic

/-!
# Paths and file systems

What a path asks for, and the tables in which it is looked up.
-/

/-!
## Paths

A path is a sequence of bytes in which slashes part the names. It need not be well-formed UTF-8; it is
shown to people with replacement characters.

`Path.steps` says what a path asks for, in order. Empty names ask for nothing, except that a slash at
the end asks for a directory, which matters to whoever is about to create a file.
-/

namespace AnyCase

abbrev Name := Bytes

/-- A path, absolute if it begins with a slash. -/
abbrev Path := Bytes

/-- What a path asks for next. -/
inductive Step where
  /-- The entry of this name in the directory at hand. -/
  | name (n : Name)
  /-- The directory at hand. -/
  | here
  /-- The directory above it. -/
  | up
  /-- That the path so far leads to a directory; the last step of a path that ends with a slash. -/
  | slash
deriving DecidableEq, Repr

namespace Path

/-- The byte that parts the names of a path. -/
def separator : UInt8 := 0x2F

/-- The byte before an extension, and the name of the directory at hand. -/
def dot : UInt8 := 0x2E

/-- The step that a name between two slashes asks for. -/
def stepOfName (n : Name) : Step :=
  if n = [dot] then .here else if n = [dot, dot] then .up else .name n

def steps (p : Path) : List Step :=
  ((p.splitOn separator).filter (· ≠ [])).map stepOfName
    ++ if p.getLast? = some separator then [.slash] else []

def isAbsolute (p : Path) : Bool :=
  p.head? = some separator

/-- The path through these names. -/
def ofNames (names : List Name) : Path :=
  [separator].intercalate names

def display (p : Path) : Text :=
  Utf8.display p

/-- A path that ends in a name, without the last extension of that name. A dot that begins the name begins
no extension. -/
def dropExtension (p : Path) : Path :=
  match p.reverse.dropWhile fun b => b ≠ dot ∧ b ≠ separator with
  | b :: c :: rest => if b = dot ∧ c ≠ separator then (c :: rest).reverse else p
  | _ => p

example : dropExtension [0x61, 0x2E, 0x62, 0x2E, 0x63] = [0x61, 0x2E, 0x62] := by decide

example : dropExtension [0x61, 0x2F, 0x2E, 0x62] = [0x61, 0x2F, 0x2E, 0x62] := by decide

end Path

/-!
## File systems

A file system is seen as a table from locations to entries, and a table of the file objects that the
entries lead to. A location is the list of names on the way from the root, without links or dots, so it
names a directory in one way only; a file object can have several names, and so has a number.

Both tables answer for everything: the root is a directory, what has no entry is not there, and an object
that was never written is an empty regular file.
-/

/-- The names on the way from the root. -/
abbrev Location := List Name

/-- What a directory has under a name. -/
inductive Entry where
  | directory
  /-- The file object with this number. -/
  | file (id : Nat)
  /-- A symbolic link, with the path it stands for. -/
  | link (target : Path)
deriving DecidableEq, Repr

/-- The number of the file object that an entry leads to. -/
def Entry.id? : Entry → Option Nat
  | file id => some id
  | _ => none

/-- An entry with what is behind it. -/
inductive Item where
  | directory
  | file (object : FileObject)
  | link (target : Path)
deriving DecidableEq, Repr

/-- Directories, files and links, and the directory in which relative paths begin. -/
structure FileSystem where
  entries : List (Location × Entry) := []
  objects : List (Nat × FileObject) := []
  current : Location := []
deriving DecidableEq, Repr

namespace FileSystem

def get? (fs : FileSystem) (loc : Location) : Option Entry :=
  if loc = [] then some .directory else fs.entries.lookup loc

def object (fs : FileSystem) (id : Nat) : FileObject :=
  (fs.objects.lookup id).getD (.regular [])

def item? (fs : FileSystem) (loc : Location) : Option Item :=
  (fs.get? loc).map fun
    | .directory => .directory
    | .file id => .file (fs.object id)
    | .link target => .link target

def setEntry (fs : FileSystem) (loc : Location) (e : Entry) : FileSystem :=
  { fs with entries := (loc, e) :: fs.entries.filter (·.1 ≠ loc) }

/-- Takes the entry at a location away. The file object behind it stays. -/
def eraseEntry (fs : FileSystem) (loc : Location) : FileSystem :=
  { fs with entries := fs.entries.filter (·.1 ≠ loc) }

def setObject (fs : FileSystem) (id : Nat) (o : FileObject) : FileSystem :=
  { fs with objects := (id, o) :: fs.objects.filter (·.1 ≠ id) }

/-- A number that no entry leads to. -/
def freshId (fs : FileSystem) : Nat :=
  (fs.entries.filterMap (·.2.id?)).foldl (fun bound id => max bound (id + 1)) 0

/-- Everything below a directory, with its location from there. Locations are in order, which puts each
directory before what is in it and sorts its names by their bytes. -/
def listing (fs : FileSystem) (dir : Location) : List (Location × Item) :=
  let below := (fs.entries.map (·.1)).filter fun loc => dir.isPrefixOf loc && loc ≠ dir
  (below.mergeSort (· ≤ ·)).filterMap fun loc =>
    (fs.item? loc).map fun item => (loc.drop dir.length, item)

theorem lookup_filter_of_ne {α β : Type} [BEq α] [LawfulBEq α] [DecidableEq α] {k key : α}
    (h : key ≠ k) (table : List (α × β)) : (table.filter (·.1 ≠ k)).lookup key = table.lookup key := by
  induction table with
  | nil => rfl
  | cons row table ih =>
    obtain ⟨k', v⟩ := row
    by_cases hk : k' = k
    · subst hk
      rw [List.filter_cons_of_neg (by simp), ih, List.lookup_cons, beq_false_of_ne h]
    · rw [List.filter_cons_of_pos (by simpa using hk), List.lookup_cons, List.lookup_cons, ih]

@[simp] theorem object_setObject_self (fs : FileSystem) (id : Nat) (o : FileObject) :
    (fs.setObject id o).object id = o := by
  simp [object, setObject]

theorem object_setObject_of_ne (fs : FileSystem) {id id' : Nat} (o : FileObject) (h : id' ≠ id) :
    (fs.setObject id o).object id' = fs.object id' := by
  rw [object, object, setObject, List.lookup_cons, beq_false_of_ne h]
  simp only [lookup_filter_of_ne h]

/-- Setting an object to what it is changes nothing that can be found out. -/
theorem object_setObject_of_eq {fs : FileSystem} {id : Nat} {o : FileObject} (h : fs.object id = o) (id' : Nat) :
    (fs.setObject id o).object id' = fs.object id' := by
  by_cases hid : id' = id
  · rw [hid, object_setObject_self, h]
  · exact object_setObject_of_ne fs o hid

@[simp] theorem setObject_setObject (fs : FileSystem) (id : Nat) (o o' : FileObject) :
    (fs.setObject id o).setObject id o' = fs.setObject id o' := by
  simp [setObject]

@[simp] theorem get?_setObject (fs : FileSystem) (id : Nat) (o : FileObject) (loc : Location) :
    (fs.setObject id o).get? loc = fs.get? loc := rfl

@[simp] theorem object_setEntry (fs : FileSystem) (loc : Location) (e : Entry) (id : Nat) :
    (fs.setEntry loc e).object id = fs.object id := rfl

theorem get?_setEntry_self (fs : FileSystem) {loc : Location} (e : Entry) (h : loc ≠ []) :
    (fs.setEntry loc e).get? loc = some e := by
  simp [get?, setEntry, h]

theorem get?_setEntry_of_ne (fs : FileSystem) {loc loc' : Location} (e : Entry) (h : loc' ≠ loc) :
    (fs.setEntry loc e).get? loc' = fs.get? loc' := by
  rw [get?, get?, setEntry, List.lookup_cons, beq_false_of_ne h]
  simp only [lookup_filter_of_ne h]

end FileSystem

end AnyCase
