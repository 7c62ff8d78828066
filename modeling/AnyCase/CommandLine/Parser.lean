import AnyCase.CommandLine.Batch

/-!
# Arguments

A parser that tells flags from files and answers the flags, as the command has it in front of its program.
-/

/-!
## Text without terminal control sequences

What is left of a text when it is shown where no terminal reads it. A control sequence begins with the
escape character, and its next character tells how it goes on and where it ends; control characters on
their own go too, except for the white space among them.

White space is shown even inside a sequence that has not ended. Then what follows is shown as plain text
as well, up to the next character that plain text does not show; there the sequence goes on where it was
left. A character beyond ASCII that is shown on the way ends the sequence.
-/

namespace AnyCase.Terminal

/-- What the characters at hand belong to. -/
inductive Mode where
  | plain
  /-- A sequence of which only the escape character was read. -/
  | escape
  /-- An escape sequence of several characters. -/
  | intermediate
  /-- A control sequence, with parameters, that ends in a letter or a like character. -/
  | control
  /-- A device control string, before its first parameter. -/
  | deviceEntry
  /-- A device control string, among its parameters. -/
  | deviceParameters
  /-- A device control string, between its parameters and its data. -/
  | deviceIntermediate
  /-- The data of a device control string, or another string that ends in the same way. -/
  | data
  /-- A command to the operating system of the terminal; a bell ends it. -/
  | command
deriving DecidableEq, Repr

/-- The control characters that are white space: tab, line feed, form feed and carriage return. -/
def whiteControls : List Char := ['\t', '\n', '\x0C', '\r']

namespace Mode

def shows (m : Mode) (c : Char) : Bool :=
  match m with
  | plain => (' ' ≤ c && c ≠ '\x7F') || whiteControls.contains c
  | escape | intermediate | control => whiteControls.contains c
  | _ => false

/-- The mode after the character that follows an escape character. -/
def afterEscape (c : Char) : Mode :=
  if c < ' ' then escape
  else if c < '0' then intermediate
  else if c = '[' then control
  else if c = ']' then command
  else if c = 'P' then deviceEntry
  else if c = 'X' ∨ c = '^' ∨ c = '_' then data
  else if c < '\x7F' then plain
  else escape

/-- Whether the byte that ends a string is among the bytes of a character. -/
def endsString (c : Char) : Bool :=
  (String.utf8EncodeChar c).contains 0x9C

/-- The mode after a character that is not shown. -/
def next (m : Mode) (c : Char) : Mode :=
  if c = '\x1B' then escape
  else if c = '\x18' ∨ c = '\x1A' then plain
  else
    match m with
    | plain => plain
    | escape => afterEscape c
    | intermediate => if '0' ≤ c ∧ c < '\x7F' then plain else intermediate
    | control => if '@' ≤ c ∧ c < '\x7F' then plain else control
    | deviceEntry =>
      if c < ' ' ∨ '\x7F' ≤ c then deviceEntry
      else if c < '0' then deviceIntermediate
      else if c < '@' then deviceParameters
      else data
    | deviceParameters =>
      if c < ' ' ∨ '\x7F' ≤ c then deviceParameters
      else if c < '0' then deviceIntermediate
      else if c < '<' then deviceParameters
      else data
    | deviceIntermediate => if '0' ≤ c ∧ c < '\x7F' then data else deviceIntermediate
    | data => if endsString c then plain else data
    | command => if c = '\x07' then plain else command

end Mode

/-- The characters that are shown. -/
def strip (t : Text) : Text :=
  go .plain false t
where
  /-- Reads on in a mode; while `showing`, plain text is shown whatever the mode. -/
  go (mode : Mode) (showing : Bool) : Text → Text
    | [] => []
    | c :: rest =>
      if (if showing then Mode.plain else mode).shows c then
        c :: go (if c.toNat < 0x80 then mode else .plain) true rest
      else
        go (mode.next c) false rest

example : strip ['\x1B', '[', '3', '1', 'm', 'r', '\x1B', '[', '0', 'm', '!'] = ['r', '!'] := by
  decide

example : strip ['a', '\x07', '\t', 'b', '\x1B', 'P', 'q', '\x1B', '\\', 'c'] = ['a', '\t', 'b', 'c'] := by
  decide

end AnyCase.Terminal

/-!
## Flags and files

Flags have a meaning in the first place only. Whatever stands there and is no flag is a file, and so is
everything behind it; two hyphens in the first place are dropped and make a file of all that follows.
Short flags can stand together behind one hyphen, where the first one counts; with any other character
among them the argument is a file. A name behind two hyphens must be a text, whether it is a flag or not.

A list of files is taken whole or not at all: an empty name anywhere in it is refused.
-/

namespace AnyCase.CommandLine

inductive Flag where
  | help
  | version
deriving DecidableEq, Repr

inductive Misuse where
  /-- A flag is followed by an equals sign and a value. -/
  | unexpectedValue (flag : Flag) (value : Bytes)
  /-- The name of an argument with two hyphens in front is no text. -/
  | unexpectedArgument (name : Bytes)
  /-- A file has the empty name. -/
  | missingValue
deriving DecidableEq, Repr

namespace Flag

/-- The letter of the flag behind one hyphen. -/
def letter : Flag → UInt8
  | help => 0x68
  | version => 0x56

def long : Flag → String
  | help => "--help"
  | version => "--version"

def ofLetter? (b : UInt8) : Option Flag :=
  [help, version].find? (·.letter = b)

def answer : Flag → Text
  | help =>
    ofLines
      ["Converts ANTLRv4 keyword file(s) to be case-insensitive",
        "",
        s!"Usage: {commandName} [FILE]...",
        "",
        "Arguments:",
        "  [FILE]...  Keyword files to convert; each must end in .g4.in",
        "",
        "Options:",
        "  -h, --help     Print help",
        "  -V, --version  Print version"]
  | version => ofLines [s!"{commandName} 0.1.0"]

end Flag

namespace Misuse

/-- How an argument is shown: without the control sequences in it. -/
def shown (argument : Bytes) : Text :=
  Terminal.strip (Utf8.display argument)

/-- What is said about arguments that are refused. -/
def message : Misuse → Text
  | unexpectedValue flag value =>
    "error: unexpected value '".toList ++ shown value
      ++ ofLines
        [s!"' for '{flag.long}' found; no more were expected",
          "",
          s!"Usage: {commandName} {flag.long} [FILE]...",
          "",
          "For more information, try '--help'."]
  | unexpectedArgument name =>
    "error: unexpected argument '".toList ++ shown name ++ ofLines ["' found", ""]
      ++ "  tip: to pass '".toList ++ shown name ++ "' as a value, use '-- ".toList ++ shown name
      ++ ofLines ["'", "", s!"Usage: {commandName} [FILE]...", "", "For more information, try '--help'."]
  | missingValue =>
    ofLines
      ["error: a value is required for '[FILE]...' but none was supplied",
        "",
        "For more information, try '--help'."]

end Misuse

namespace Parsed

def answered (flag : Flag) : Parsed :=
  ended (Utf8.encode flag.answer) [] 0

def refused (misuse : Misuse) : Parsed :=
  ended [] (Utf8.encode misuse.message) 2

/-- A list of files that is taken whole or not at all. -/
def ofFiles (paths : List Path) : Parsed :=
  if paths.any List.isEmpty then refused .missingValue else files paths

end Parsed

def hyphen : UInt8 := 0x2D

/-- The byte between a flag and a value. -/
def equals : UInt8 := 0x3D

/-- The argument in front of a list of files in which every argument is a file. -/
def endOfFlags : Bytes := [hyphen, hyphen]

/-- The first of the short flags that stand together behind one hyphen. -/
def shortFlag? : Bytes → Option Flag
  | h :: b :: letters =>
    if h = hyphen ∧ letters.all fun l => (Flag.ofLetter? l).isSome then Flag.ofLetter? b else none
  | _ => none

/-- What a long flag comes to, with or without a value. -/
def longFlag? (argument : Bytes) : Option Parsed :=
  [Flag.help, Flag.version].findSome? fun flag =>
    let long := Utf8.encode flag.long.toList
    if argument = long then some (.answered flag)
    else if (long ++ [equals]).isPrefixOf argument then
      some (.refused (.unexpectedValue flag (argument.drop (long.length + 1))))
    else none

/-- The name of an argument with two hyphens in front, up to a value, if it is no text. -/
def illFormedName? (argument : Bytes) : Option Bytes :=
  let name := argument.takeWhile (· ≠ equals)
  if endOfFlags.isPrefixOf argument ∧ Utf8.decode? name = none then some name else none

/-- What the first argument comes to if it is not taken as a file. -/
def flag? (argument : Bytes) : Option Parsed :=
  ((longFlag? argument).or ((shortFlag? argument).map .answered)).or
    ((illFormedName? argument).map fun name => .refused (.unexpectedArgument name))

def parse : Parser
  | [] => .files []
  | argument :: rest =>
    if argument = endOfFlags then .ofFiles rest
    else (flag? argument).getD (.ofFiles (argument :: rest))

end AnyCase.CommandLine
