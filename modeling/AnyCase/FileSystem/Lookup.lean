import AnyCase.FileSystem.Basic

/-!
# Using a file system

Where paths lead, what opening them for reading or writing comes to, and how entries are made and removed.
-/

/-!
## Path lookup

Where a path leads. A walk takes the steps of the path from directory to directory. A link it comes upon
is replaced by the steps of its target, at its end as well as on the way, so that two names of one place
lead to the same `Place`. A walk follows a bounded number of links, and so always ends.

A name that is missing ends the walk; if it was the last step, its place is known to be free. What is to
be created must be a file: the walk refuses a last name behind which a slash stands before it looks
whether there is anything.
-/

namespace AnyCase

inductive Place where
  | directory (loc : Location)
  /-- The file object with this number. -/
  | file (id : Nat)
  /-- A place in a directory that nothing takes up. -/
  | vacant (loc : Location)
deriving DecidableEq, Repr

inductive Purpose where
  | reading
  | creating
deriving DecidableEq, Repr

namespace FileSystem

/-- The greatest number of bytes of a name. -/
def nameLimit : Nat := 255

/-- The greatest number of bytes of a path. -/
def pathLimit : Nat := 4095

/-- The greatest number of links that a lookup follows. -/
def linkLimit : Nat := 40

/-- How far a walk came without following a link. -/
inductive Progress where
  | ended (result : Except SystemError Place)
  /-- It came upon a link in the directory `dir`, with steps left to take behind it. -/
  | atLink (dir : Location) (target : Path) (rest : List Step)

/-- Walks from the directory `dir` up to the first link. -/
def advance (fs : FileSystem) (purpose : Purpose) (dir : Location) : List Step → Progress
  | [] => .ended (.ok (.directory dir))
  | .here :: rest => advance fs purpose dir rest
  | .slash :: rest => advance fs purpose dir rest
  | .up :: rest => advance fs purpose dir.dropLast rest
  | .name n :: rest =>
    if purpose = .creating ∧ rest = [.slash] then .ended (.error .isDirectory)
    else if nameLimit < n.length then .ended (.error .nameTooLong)
    else
      match fs.get? (dir ++ [n]) with
      | none => .ended (if rest.isEmpty then .ok (.vacant (dir ++ [n])) else .error .notFound)
      | some .directory => advance fs purpose (dir ++ [n]) rest
      | some (.file id) => .ended (if rest.isEmpty then .ok (.file id) else .error .notDirectory)
      | some (.link target) => .atLink dir target rest

/-- The directory in which a path begins, for a path that stands in the directory `dir`. -/
def beginning (dir : Location) (p : Path) : Location :=
  if p.isAbsolute then [] else dir

/-- Walks from the directory `dir`, following at most `links` links. -/
def walk (fs : FileSystem) (purpose : Purpose) :
    (links : Nat) → (dir : Location) → List Step → Except SystemError Place
  | 0, dir, steps =>
    match fs.advance purpose dir steps with
    | .ended result => result
    | .atLink .. => .error .tooManyLinks
  | links + 1, dir, steps =>
    match fs.advance purpose dir steps with
    | .ended result => result
    | .atLink dir target rest =>
      fs.walk purpose links (beginning dir target) (target.steps ++ rest)

/-- Where a path leads. A path that cannot be handed to the system at all is refused first. -/
def lookup (fs : FileSystem) (purpose : Purpose) (p : Path) : Except Fault Place :=
  if p.contains 0 then .error .zeroInPath
  else if pathLimit < p.length then .error (.system .nameTooLong)
  else if p.isEmpty then .error (.system .notFound)
  else (fs.walk purpose linkLimit (beginning fs.current p) p.steps).mapError .system

end FileSystem

/-!
## Opening files

A path is opened to read what it leads to, or to create the file it leads to. Creating empties a file that
is there, whatever name it was reached by, and makes a new one where nothing is: behind a link that leads
nowhere, at the place the link means. A failed opening changes nothing.
-/

/-- What is opened for reading. A directory can be opened; it is the reading that fails. -/
inductive Opened where
  | directory
  /-- The file object with this number. -/
  | file (id : Nat)
deriving DecidableEq, Repr

namespace FileSystem

def openForReading (fs : FileSystem) (p : Path) : Except Fault Opened := do
  match ← fs.lookup .reading p with
  | .directory _ => return .directory
  | .file id => return .file id
  | .vacant _ => throw (.system .notFound)

def arrivals (fs : FileSystem) : Opened → List Stream.Arrival
  | .directory => [.fault (.system .isDirectory)]
  | .file id => (fs.object id).arrivals

/-- A new, empty file at a location, and its number. -/
def newFile (fs : FileSystem) (loc : Location) : FileSystem × Nat :=
  ((fs.setEntry loc (.file fs.freshId)).setObject fs.freshId (.regular []), fs.freshId)

/-- Opens the file that a path leads to for writing, and gives its number. -/
def create (fs : FileSystem) (p : Path) : Except Fault (FileSystem × Nat) := do
  match ← fs.lookup .creating p with
  | .directory _ => throw (.system .isDirectory)
  | .file id => return (fs.setObject id (fs.object id).truncate, id)
  | .vacant loc => return fs.newFile loc

end FileSystem

/-!
## Making and removing entries

The operations by which a directory gets its files, directories and links. The last name of a path is not
followed here when it is an entry that is made or removed.
-/

namespace FileSystem

/-- The location of an entry that is or will be in the directory that the path before its last name leads
to. -/
def locate (fs : FileSystem) (p : Path) : Except Fault Location :=
  match p.steps.getLast? with
  | some (.name n) =>
    match fs.walk .reading linkLimit (beginning fs.current p) p.steps.dropLast with
    | .ok (.directory dir) => .ok (dir ++ [n])
    | .ok _ => .error (.system .notDirectory)
    | .error e => .error (.system e)
  | _ => .error (.system .isDirectory)

/-- Gives a file new content, or makes it. -/
def writeFile (fs : FileSystem) (p : Path) (content : Bytes) : Except Fault FileSystem := do
  let (fs, id) ← fs.create p
  return fs.setObject id (← (fs.object id).write content)

/-- Makes a directory, and every missing one on the way to it. -/
def makeDirectories (fs : FileSystem) (p : Path) : Except Fault FileSystem :=
  (List.range p.steps.length).foldlM
    (fun fs taken => do
      match ← (fs.walk .reading linkLimit (beginning fs.current p) (p.steps.take (taken + 1))).mapError
          Fault.system with
      | .directory _ => return fs
      | .vacant loc => return fs.setEntry loc .directory
      | .file _ => throw (.system .notDirectory))
    fs

def makeLink (fs : FileSystem) (p target : Path) : Except Fault FileSystem := do
  return fs.setEntry (← fs.locate p) (.link target)

/-- Gives an entry a second name. -/
def makeAlias (fs : FileSystem) (p target : Path) : Except Fault FileSystem := do
  match fs.get? (← fs.locate target) with
  | some e => return fs.setEntry (← fs.locate p) e
  | none => throw (.system .notFound)

def remove (fs : FileSystem) (p : Path) : Except Fault FileSystem := do
  return fs.eraseEntry (← fs.locate p)

end FileSystem

end AnyCase
