import AnyCase.Conversion.Basic

/-!
# Running a batch

A parser stands in front of the program. It hands on the files that the arguments name, or answers for itself
and ends the program. The program converts its files one after the other. A file without the suffix of a source
is skipped with a warning, a conversion that fails is reported, and neither keeps the next file from its turn or
changes the exit status.

The program is written once, for any `Host`; `run` has it run on a file system.
-/

namespace AnyCase.CommandLine

/-- What a parser makes of the arguments. -/
inductive Parsed where
  /-- The program goes on with these files. -/
  | files (files : List Path)
  /-- The program ends with what the parser has to say. -/
  | ended (stdout stderr : Bytes) (status : Nat)
deriving DecidableEq, Repr

abbrev Parser := List Bytes → Parsed

/-! ### Texts -/

def commandName : String := "g4-casefold"

/-- The text that shows the lines, each ended by a newline. -/
def ofLines (lines : List String) : Text :=
  lines.flatMap fun line => line.toList ++ ['\n']

/-- How the command is used, for whoever names no file. -/
def usage : Text :=
  ofLines
    [s!"usage: {commandName} file1.g4.in [file2.g4.in ...]",
      "\tConverts the ANTLRv4 keyword file(s) to be case-insensitive."]

/-- The warning about a file that is skipped. -/
def skipped (file : Path) : Text :=
  "WARNING:  Unrecognized file-type for ".toList ++ file.display ++ ", skipping.\n".toList

/-- The report on a file whose conversion failed. -/
def failed (file : Path) (failure : Conversion.Failure) : Text :=
  "error: Failed to convert ".toList ++ file.display ++ ": ".toList ++ failure.chain ++ ['\n']

/-! ### The program -/

/-- What the program needs of the system that it runs on. -/
structure Host (m : Type → Type) where
  convert : Path → m (Except Conversion.Failure Path)
  /-- Writes to the standard output. -/
  print : Bytes → m Unit
  /-- Writes to the standard error. -/
  complain : Bytes → m Unit

namespace Host

variable {m : Type → Type} [Monad m]

/-- Ends the program with these last words. -/
def finish (host : Host m) (stdout stderr : Bytes) (status : Nat) : m Nat := do
  host.print stdout
  host.complain stderr
  return status

/-- Converts a file, or skips it with a warning. -/
def file (host : Host m) (file : Path) : m Unit := do
  if Conversion.isSource file then
    if let .error f ← host.convert file then
      host.complain (Utf8.encode (failed file f))
  else
    host.print (Utf8.encode (skipped file))

/-- Runs the program and gives its exit status. -/
def program (host : Host m) (parse : Parser) (arguments : List Bytes) : m Nat :=
  match parse arguments with
  | .ended stdout stderr status => host.finish stdout stderr status
  | .files [] => host.finish (Utf8.encode usage) [] 1
  | .files files => do
    files.forM host.file
    return 0

end Host

/-! ### Running it on a file system -/

/-- What a run leaves behind: the files, and what was printed, in bytes. -/
structure Run where
  fileSystem : FileSystem
  stdout : Bytes := []
  stderr : Bytes := []
deriving DecidableEq, Repr

structure Exit where
  run : Run
  status : Nat
deriving DecidableEq, Repr

/-- The host whose state is what a run leaves behind. -/
def runHost : Host (StateM Run) where
  convert path := do
    let r ← get
    let converted := Conversion.convert r.fileSystem path
    set { r with fileSystem := converted.1 }
    return converted.2
  print bytes := modify fun r => { r with stdout := r.stdout ++ bytes }
  complain bytes := modify fun r => { r with stderr := r.stderr ++ bytes }

@[simp] theorem run_convert (path : Path) (r : Run) :
    (runHost.convert path).run r =
      pure ((Conversion.convert r.fileSystem path).2,
        { r with fileSystem := (Conversion.convert r.fileSystem path).1 }) := rfl

@[simp] theorem run_print (bytes : Bytes) (r : Run) :
    (runHost.print bytes).run r = pure ((), { r with stdout := r.stdout ++ bytes }) := rfl

@[simp] theorem run_complain (bytes : Bytes) (r : Run) :
    (runHost.complain bytes).run r = pure ((), { r with stderr := r.stderr ++ bytes }) := rfl

def run (parse : Parser) (fs : FileSystem) (arguments : List Bytes) : Exit :=
  let ended := Id.run ((runHost.program parse arguments).run ⟨fs, [], []⟩)
  ⟨ended.2, ended.1⟩

end AnyCase.CommandLine
