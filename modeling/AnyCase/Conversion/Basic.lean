import AnyCase.FileSystem.Lookup

/-!
# Conversions

A source is converted in stages, each of which can fail. The stages are written once, for any system that can open,
create and write files; the one that is modelled is the `FileSystem`.
-/

/-!
## Failed conversions

The stages at which a conversion fails, each with the path it concerns and the fault behind it.
-/

namespace AnyCase.Conversion

inductive Failure where
  /-- The path is not that of a source. -/
  | unrecognizedFileType (path : Path)
  /-- The source cannot be opened. -/
  | openSource (path : Path) (cause : Fault)
  /-- The output cannot be created; the path is that of the output. -/
  | createOutput (path : Path) (cause : Fault)
  /-- Reading, rewriting or writing broke off. -/
  | transform (path : Path) (cause : Fault)
deriving DecidableEq, Repr

namespace Failure

def path : Failure → Path
  | unrecognizedFileType p => p
  | openSource p _ => p
  | createOutput p _ => p
  | transform p _ => p

def cause? : Failure → Option Fault
  | unrecognizedFileType _ => none
  | openSource _ f => some f
  | createOutput _ f => some f
  | transform _ f => some f

/-- The text of a failure, without its cause. -/
def message : Failure → Text
  | unrecognizedFileType p => "Unrecognized file-type for ".toList ++ p.display
  | openSource p _ => "Failed to open source file: ".toList ++ p.display
  | createOutput p _ => "Failed to create output file: ".toList ++ p.display
  | transform p _ => "Failed while rewriting ".toList ++ p.display

/-- The text of a failure and of its cause. -/
def chain (failure : Failure) : Text :=
  match failure.cause? with
  | some cause => failure.message ++ ": ".toList ++ cause.message
  | none => failure.message

end Failure

/-!
## Names of sources and outputs

A source is told by the end of its path, and its output lies beside it, under the name without its last
extension. Both work on the whole path: a path that is nothing but the suffix names a source too.
-/

/-- The end of every source's path. -/
def sourceSuffix : Text := ".g4.in".toList

/-- Whether a path, as it is shown, ends like that of a source. -/
def isSource (p : Path) : Bool :=
  sourceSuffix.isSuffixOf p.display

/-- The path of a source's output. -/
def output? (p : Path) : Option Path :=
  if isSource p then some p.dropExtension else none

/-- The path of a source's output, or the failure for a path that is not that of a source. -/
def outputPath (p : Path) : Except Failure Path :=
  match output? p with
  | some output => .ok output
  | none => .error (.unrecognizedFileType p)

/-!
## Converting a source

A conversion checks the name, opens the source, creates the output, and sends the source's lines through a
buffer to the output. The output exists, and is empty, before the first line is read: an output that is
the same file as the source leaves nothing to read. Lines sent before a failure stay in the output.

`convertIn` takes the stages in any `System`; `convert` takes them in a file system.
-/

/-- What a conversion needs of the system that it takes place in. -/
structure System (m : Type → Type) where
  /-- What is opened for reading. -/
  Source : Type
  /-- What is created for writing. -/
  Target : Type
  openForReading : Path → m (Except Fault Source)
  create : Path → m (Except Fault Target)
  /-- Sends what the source brings, rewritten, to the target. -/
  rewriteInto : Source → Target → m (Option Fault)

section Stages

variable {m : Type → Type} [Monad m]

/-- Takes a stage, and turns its fault into a failure. -/
def failing {α : Type} (failure : Fault → Failure) (stage : m (Except Fault α)) : ExceptT Failure m α := do
  match ← ExceptT.lift stage with
  | .ok a => return a
  | .error f => throw (failure f)

/-- Converts the source at a path and gives the path of its output. -/
def convertIn (system : System m) (source : Path) : ExceptT Failure m Path := do
  let output ← ExceptT.mk (pure (outputPath source))
  let opened ← failing (.openSource source) (system.openForReading source)
  let created ← failing (.createOutput output) (system.create output)
  match ← ExceptT.lift (system.rewriteInto opened created) with
  | none => return output
  | some f => throw (.transform source f)

end Stages

/-- Sends what reads bring, rewritten, through a buffer of some capacity to the file object `id`. -/
def rewriteThrough (capacity : Nat) (fs : FileSystem) (arrivals : List Stream.Arrival) (id : Nat) :
    FileSystem × Option Fault :=
  match (Stream.rewriteAll arrivals).run (BufferedSink.mk (fs.object id) [] capacity) with
  | .ok () sink => (fs.setObject id sink.close, none)
  | .error f sink => (fs.setObject id sink.close, some f)

/-- Sends what an opened source brings, rewritten, to the file object `id`. -/
def rewriteInto (fs : FileSystem) (source : Opened) (id : Nat) : FileSystem × Option Fault :=
  rewriteThrough BufferedSink.usualCapacity fs (fs.arrivals source) id

/-- The system whose state is a file system. Targets are file objects. -/
def treeSystem : System (StateM FileSystem) where
  Source := Opened
  Target := Nat
  openForReading path := return (← get).openForReading path
  create path := do
    match (← get).create path with
    | .error f => return .error f
    | .ok (created, id) =>
      set created
      return .ok id
  rewriteInto source id := modifyGet fun fs => (rewriteInto fs source id).swap

/-- Converts the source at a path in a file system. -/
def convert (fs : FileSystem) (source : Path) : FileSystem × Except Failure Path :=
  (Id.run ((convertIn treeSystem source).run.run fs)).swap

theorem convert_eq (fs : FileSystem) (source : Path) :
    convert fs source =
      match output? source with
      | none => (fs, .error (.unrecognizedFileType source))
      | some output =>
        match fs.openForReading source with
        | .error f => (fs, .error (.openSource source f))
        | .ok opened =>
          match fs.create output with
          | .error f => (fs, .error (.createOutput output f))
          | .ok (created, id) =>
            match rewriteInto created opened id with
            | (written, none) => (written, .ok output)
            | (written, some f) => (written, .error (.transform source f)) := by
  rw [convert, convertIn, outputPath]
  rcases output? source with _ | output
  · rfl
  simp only [failing, treeSystem]
  rcases hopened : fs.openForReading source with f | opened
  · simp [ExceptT.run_bind, hopened]
  rcases hcreate : fs.create output with f | ⟨created, id⟩
  · simp [ExceptT.run_bind, hopened, hcreate]
  rcases hwritten : rewriteInto created opened id with ⟨written, _ | f⟩
  · simp [ExceptT.run_bind, hopened, hcreate, hwritten]
  · simp [ExceptT.run_bind, hopened, hcreate, hwritten]

end AnyCase.Conversion
