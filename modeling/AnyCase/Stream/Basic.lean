import AnyCase.Line.Basic

/-!
# Streams

Bytes come from reads that can fail and go, line by line, to a sink that can fail. Between the sink and what keeps the
bytes stands a buffer.
-/

/-!
## Faults of reading and writing

What can go wrong between a stream and the outside, by cause, and the one place where each cause gets
its words.
-/

namespace AnyCase

/-- The classes of fault that a device reports. -/
inductive FaultKind where
  | interrupted
  | unexpectedEnd
  | brokenPipe
  | wouldBlock
  | timedOut
  | permissionDenied
  | other
deriving DecidableEq, Repr

/-- The errors of the operating system that name resolution, reading and writing meet. -/
inductive SystemError where
  | notFound
  | notDirectory
  | isDirectory
  | noSpace
  | nameTooLong
  | tooManyLinks
deriving DecidableEq, Repr

namespace SystemError

def number : SystemError → Nat
  | notFound => 2
  | notDirectory => 20
  | isDirectory => 21
  | noSpace => 28
  | nameTooLong => 36
  | tooManyLinks => 40

def words : SystemError → String
  | notFound => "No such file or directory"
  | notDirectory => "Not a directory"
  | isDirectory => "Is a directory"
  | noSpace => "No space left on device"
  | nameTooLong => "File name too long"
  | tooManyLinks => "Too many levels of symbolic links"

end SystemError

/-- Why a read, a write or an opening failed. -/
inductive Fault where
  /-- A device reports the fault in its own words. -/
  | reported (kind : FaultKind) (words : Text)
  /-- A line is not well-formed UTF-8. -/
  | illFormedLine
  /-- A device took nothing of what it was offered. -/
  | nothingAccepted
  /-- A path holds the byte that would end it. -/
  | zeroInPath
  | system (error : SystemError)
deriving DecidableEq, Repr

namespace Fault

/-- An interruption is no failure: whoever meets one tries again. -/
def isInterruption : Fault → Bool
  | reported .interrupted _ => true
  | _ => false

def message : Fault → Text
  | reported _ words => words
  | illFormedLine => "stream did not contain valid UTF-8".toList
  | nothingAccepted => "failed to write whole buffer".toList
  | zeroInPath => "file name contained an unexpected NUL byte".toList
  | system e => s!"{e.words} (os error {e.number})".toList

end Fault

/-!
## Reading

A source of bytes is a list of what its reads bring, in their order. After the last one there is nothing
more to read.
-/

namespace Stream

/-- What one read brings. -/
inductive Arrival where
  /-- Some bytes, or for the moment none. -/
  | chunk (bytes : Bytes)
  | fault (f : Fault)
deriving DecidableEq, Repr

end Stream

/-!
## Sinks

A `Sink` takes whole pieces of bytes and keeps what it could take when it fails. `ScriptedSink` is the
sink whose device answers as a list says, one answer for each low-level write; it shows what becomes of
a piece when the device takes it in parts, is interrupted, or refuses.
-/

/-- Something that bytes are written to. A failure leaves the state that was reached. -/
class Sink (σ : Type) where
  writeAll : Bytes → EStateM Fault σ Unit
  /-- Sees to it that what was written arrives. -/
  flush : EStateM Fault σ Unit

/-- The answer of a device to a low-level write. -/
inductive WriteAnswer where
  /-- It takes as many bytes, or all if there are fewer. -/
  | accept (limit : Nat)
  /-- It takes nothing and reports a fault. -/
  | fault (f : Fault)
deriving DecidableEq, Repr

/-- A low-level write: what the device was offered, and how many bytes of it the device took. -/
structure WriteCall where
  offered : Bytes
  taken : Nat
deriving DecidableEq, Repr

def WriteCall.accepted (c : WriteCall) : Bytes :=
  c.offered.take c.taken

/-- A sink whose device gives the answers of a list, and takes everything after the last one. -/
structure ScriptedSink where
  answers : List WriteAnswer := []
  /-- What the next flush fails with. -/
  flushFault : Option Fault := none
  /-- The low-level writes so far, latest first. -/
  calls : List WriteCall := []
  flushes : Nat := 0
deriving DecidableEq, Repr

namespace ScriptedSink

def accepted (s : ScriptedSink) : Bytes :=
  s.calls.reverse.flatMap WriteCall.accepted

/-- What offering bytes to the device came to. -/
structure Offered where
  calls : List WriteCall
  remaining : List WriteAnswer
  fault : Option Fault
deriving DecidableEq, Repr

def Offered.cons (c : WriteCall) (o : Offered) : Offered :=
  { o with calls := c :: o.calls }

/-- Offers the bytes, and again what is left of them, until all are taken or a fault other than an
interruption ends it. Bytes that are not there need no write. -/
def offer : List WriteAnswer → Bytes → Offered
  | answers, [] => ⟨[], answers, none⟩
  | [], bytes => ⟨[⟨bytes, bytes.length⟩], [], none⟩
  | .accept 0 :: answers, bytes => ⟨[⟨bytes, 0⟩], answers, some .nothingAccepted⟩
  | .accept (n + 1) :: answers, bytes =>
    (offer answers (bytes.drop (n + 1))).cons ⟨bytes, min (n + 1) bytes.length⟩
  | .fault f :: answers, bytes =>
    if f.isInterruption then (offer answers bytes).cons ⟨bytes, 0⟩
    else ⟨[⟨bytes, 0⟩], answers, some f⟩

def after (s : ScriptedSink) (o : Offered) : ScriptedSink :=
  { s with answers := o.remaining, calls := o.calls.reverse ++ s.calls }

instance : Sink ScriptedSink where
  writeAll bytes := fun s =>
    let offered := offer s.answers bytes
    match offered.fault with
    | some f => .error f (s.after offered)
    | none => .ok () (s.after offered)
  flush := fun s =>
    let flushed := { s with flushFault := none, flushes := s.flushes + 1 }
    match s.flushFault with
    | some f => .error f flushed
    | none => .ok () flushed

end ScriptedSink

/-!
## File objects

What a name in a directory can lead to besides a directory: a regular file or one of two devices. A file
object has no name of its own, so that several names can share it.
-/

/-- A file as its readers and writers see it. -/
inductive FileObject where
  /-- Keeps what is written. -/
  | regular (content : Bytes)
  /-- Takes everything, keeps nothing and has nothing to read. -/
  | null
  /-- Has no room for a single byte. What its reads bring does not depend on what is written. -/
  | full (reads : List Stream.Arrival)
deriving DecidableEq, Repr

namespace FileObject

/-- The object after its content is dropped. -/
def truncate : FileObject → FileObject
  | regular _ => regular []
  | o => o

/-- Writes bytes behind the content. Writing no bytes succeeds everywhere. -/
def write (bytes : Bytes) : FileObject → Except Fault FileObject
  | regular content => .ok (regular (content ++ bytes))
  | null => .ok null
  | full reads => if bytes.isEmpty then .ok (full reads) else .error (.system .noSpace)

/-- What reading the object from its start brings. -/
def arrivals : FileObject → List Stream.Arrival
  | regular content => [.chunk content]
  | null => []
  | full reads => reads

@[simp] theorem truncate_truncate (o : FileObject) : o.truncate.truncate = o.truncate := by
  cases o <;> rfl

/-- Writing changes the content at most. -/
theorem truncate_write {o o' : FileObject} {bytes : Bytes} (hwrite : o.write bytes = .ok o') :
    o'.truncate = o.truncate := by
  cases o with
  | regular content =>
    obtain rfl := Except.ok.inj hwrite
    rfl
  | null =>
    obtain rfl := Except.ok.inj hwrite
    rfl
  | full reads =>
    rw [write] at hwrite
    split at hwrite
    · obtain rfl := Except.ok.inj hwrite
      rfl
    · cases hwrite

end FileObject

/-!
## Buffered writing

A sink that collects small pieces and hands them on to a file object together. What the object refuses is
met only when the buffer runs over or is flushed, so a fault can belong to a piece that was taken long
before.
-/

/-- A file object, and the bytes that are on the way to it. -/
structure BufferedSink where
  object : FileObject
  held : Bytes := []
  /-- The number of bytes that fit into the buffer. -/
  capacity : Nat
deriving DecidableEq, Repr

namespace BufferedSink

/-- The capacity of the buffer in front of an output. -/
def usualCapacity : Nat := 8192

/-- Hands bytes to the object past the buffer. -/
def passOn (bytes : Bytes) : EStateM Fault BufferedSink Unit := fun s =>
  match s.object.write bytes with
  | .ok object => .ok () { s with object }
  | .error f => .error f s

/-- Hands the buffer on and empties it; if the object refuses, the buffer stays. -/
def spill : EStateM Fault BufferedSink Unit := do
  passOn (← get).held
  modify ({ · with held := [] })

def hold (bytes : Bytes) : EStateM Fault BufferedSink Unit :=
  modify fun s => { s with held := s.held ++ bytes }

instance : Sink BufferedSink where
  writeAll bytes := do
    let capacity := (← get).capacity
    let spare := capacity - (← get).held.length
    if bytes.length < spare then
      hold bytes
    else
      -- A piece that fills the buffer exactly is still taken as it is.
      if spare < bytes.length then spill
      if capacity ≤ bytes.length then passOn bytes else hold bytes
  flush := spill

/-- The object after the sink is given up: what was held is handed on once more, and a refusal goes
unnoticed. -/
def close (s : BufferedSink) : FileObject :=
  match s.object.write s.held with
  | .ok object => object
  | .error _ => s.object

end BufferedSink

/-!
## Rewriting a stream

Bytes arrive in chunks of any size and leave line by line. A line ends with a newline byte, which belongs
to it; the last one may lack it. A line is held until it is complete, must then be well-formed, and goes
to the sink rewritten. Only the bytes that arrived so far decide what is held, so the borders of the
chunks leave no trace.

A read that is interrupted is repeated. Any other failing read ends the run, and the line that was held is
lost; so does a failing write, or a line that is not well-formed. At the end the sink is flushed once.
-/

namespace Stream

def newline : UInt8 := 0x0A

variable {σ : Type} [Sink σ]

/-- Sends a complete line to the sink, rewritten. -/
def sendLine (line : Bytes) : EStateM Fault σ Unit :=
  match Utf8.decode? line with
  | some text => Sink.writeAll (Utf8.encode (Line.rewrite text))
  | none => throw .illFormedLine

/-- Takes a byte, given the bytes of the line at hand, latest first; gives those of the line at hand
afterwards. -/
def takeByte (held : Bytes) (b : UInt8) : EStateM Fault σ Bytes := do
  if b = newline then
    sendLine (b :: held).reverse
    return []
  else
    return b :: held

/-- Takes what a read brings. -/
def takeArrival (held : Bytes) : Arrival → EStateM Fault σ Bytes
  | .chunk bytes => bytes.foldlM takeByte held
  | .fault f => if f.isInterruption then return held else throw f

/-- Rewrites everything that the reads bring, up to the end or the first failure. -/
def rewriteAll (arrivals : List Arrival) : EStateM Fault σ Unit := do
  let held ← arrivals.foldlM takeArrival []
  unless held.isEmpty do
    sendLine held.reverse
  Sink.flush

end Stream

end AnyCase
