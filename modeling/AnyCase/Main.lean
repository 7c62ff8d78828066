import AnyCase.CommandLine.Parser

/-!
# The command

The program on the files and handles of the operating system. What is converted, which lines are written and where
they stop, and what is printed is the library's.
-/

namespace AnyCase.Main

/-- The fault behind an error of the operating system. -/
def faultOf (e : IO.Error) : Fault :=
  match e with
  | .interrupted _ code details => .reported .interrupted s!"{details} (os error {code})".toList
  | .alreadyExists _ code details | .otherError code details | .resourceBusy code details
  | .resourceVanished code details | .unsupportedOperation code details | .hardwareFault code details
  | .unsatisfiedConstraints code details | .illegalOperation code details | .protocolError code details
  | .timeExpired code details | .noFileOrDirectory _ code details
  | .invalidArgument _ code details | .permissionDenied _ code details
  | .resourceExhausted _ code details | .inappropriateType _ code details | .noSuchThing _ code details =>
    .reported .other s!"{details} (os error {code})".toList
  | .unexpectedEof => .reported .unexpectedEnd []
  | .userError words => .reported .other words.toList

def attempt {α : Type} (action : IO α) : IO (Except Fault α) := do
  match ← action.toBaseIO with
  | .ok a => return .ok a
  | .error e => return .error (faultOf e)

/-- A path as the system takes it. Arguments are well-formed, so nothing is lost in showing them. -/
def spelled (p : Path) : String :=
  String.ofList p.display

def write (target : IO.FS.Handle) (bytes : Bytes) : IO (Except Fault Unit) :=
  attempt do
    target.write (ByteArray.mk bytes.toArray)
    target.flush

/-- What reading a file to its end brings. Only an interruption lets the reading go on. -/
def arrivalsOf (source : IO.FS.Handle) : IO (List Stream.Arrival) := do
  let mut arrivals := #[]
  repeat
    match ← attempt (source.read 65536) with
    | .ok bytes =>
      if bytes.isEmpty then break
      arrivals := arrivals.push (.chunk bytes.toList)
    | .error f =>
      arrivals := arrivals.push (.fault f)
      unless f.isInterruption do break
  return arrivals.toList

/-- Sends what a file brings, rewritten, to another one. -/
def rewriteInto (source target : IO.FS.Handle) : IO (Option Fault) := do
  let sink := BufferedSink.mk (.regular []) [] BufferedSink.usualCapacity
  match (Stream.rewriteAll (← arrivalsOf source)).run sink with
  | .ok () sink =>
    match ← write target (leftBuffer sink) with
    | .ok () => return none
    | .error f => return some f
  | .error f sink =>
    match ← write target (leftBuffer sink) with
    | .ok () =>
      -- What the buffer still holds is written on the way out, and what becomes of it is not asked.
      discard (write target sink.held)
      return some f
    | .error f' => return some f'
where
  leftBuffer (sink : BufferedSink) : Bytes :=
    match sink.object with
    | .regular content => content
    | _ => []

def system : Conversion.System IO where
  Source := IO.FS.Handle
  Target := IO.FS.Handle
  openForReading path := attempt (IO.FS.Handle.mk (spelled path) .read)
  create path := attempt (IO.FS.Handle.mk (spelled path) .write)
  rewriteInto := rewriteInto

def host (stdout stderr : IO.FS.Stream) : CommandLine.Host IO where
  convert path := (Conversion.convertIn system path).run
  print bytes := stdout.write (ByteArray.mk bytes.toArray)
  complain bytes := stderr.write (ByteArray.mk bytes.toArray)

end AnyCase.Main

open AnyCase in
def main (arguments : List String) : IO UInt32 := do
  let host := Main.host (← IO.getStdout) (← IO.getStderr)
  let status ← host.program CommandLine.parse (arguments.map fun a => Utf8.encode a.toList)
  return UInt32.ofNat status
