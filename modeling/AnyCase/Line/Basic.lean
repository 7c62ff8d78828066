import AnyCase.Unicode.Case

/-!
# Lines

What becomes of a line: its first literal, found between two quotes, gives way to the expansion of its keyword, which
is a sequence of bracket expressions. `Line.rewrite` is the composition of these steps, and `Line.scan` is another way
to the same result, in one pass.
-/

/-!
## Bracket expressions

A bracket expression is `[`, its members, and `]`; it stands for any one of its members. Members are
read without escapes, so a member `]` would close the expression early. A sequence of bracket
expressions accepts the texts that have one member of each, in their order.
-/

namespace AnyCase

/-- A bracket expression, by its members as they are written. -/
structure Bracket where
  members : Text
deriving DecidableEq, Repr

namespace Bracket

def render (b : Bracket) : Text :=
  '[' :: b.members ++ [']']

def renderAll (bs : List Bracket) : Text :=
  bs.flatMap render

/-- Reads a text as a sequence of bracket expressions; `none` if anything else stands in it, or the last
one is not closed. -/
def readAll? (t : Text) : Option (List Bracket) :=
  go none t
where
  /-- Reads on between two expressions, or inside one whose members so far are given, latest first. -/
  go : Option Text → Text → Option (List Bracket)
    | none, [] => some []
    | some _, [] => none
    | none, c :: t => if c = '[' then go (some []) t else none
    | some members, c :: t =>
      if c = ']' then (go none t).map (⟨members.reverse⟩ :: ·) else go (some (c :: members)) t

/-- A sequence of bracket expressions accepts a text that has as many characters, each a member of the
expression in its place. -/
def Accepts : List Bracket → Text → Prop
  | [], [] => True
  | b :: bs, c :: t => c ∈ b.members ∧ Accepts bs t
  | _, _ => False

instance Accepts.decidable : (bs : List Bracket) → (t : Text) → Decidable (Accepts bs t)
  | [], [] => isTrue trivial
  | b :: bs, c :: t =>
    have := Accepts.decidable bs t
    inferInstanceAs (Decidable (c ∈ b.members ∧ Accepts bs t))
  | [], _ :: _ => isFalse id
  | _ :: _, [] => isFalse id

example : readAll? ['[', 'I', 'i', ']', '[', 'F', 'f', ']'] = some [⟨['I', 'i']⟩, ⟨['F', 'f']⟩] := by
  decide

example : Accepts [⟨['I', 'i']⟩, ⟨['F', 'f']⟩] ['i', 'F'] := by decide

end Bracket

/-!
## Expansion of a keyword

A keyword becomes a sequence of bracket expressions, one for each character of its upper-case form,
with that character and its lower-case form as members. The keyword is put into upper case as a whole
first: a character whose upper-case form has several characters gives one expression for each.
-/

namespace Literal

/-- The bracket expression for a character and its lower-case form. -/
def eitherCase (c : Char) : Bracket where
  members := c :: Unicode.lower c

def brackets (keyword : Text) : List Bracket :=
  (Unicode.upperText keyword).map eitherCase

/-- The text that takes the place of a quoted keyword. -/
def expand (keyword : Text) : Text :=
  Bracket.renderAll (brackets keyword)

example : expand ['i', 'F', '_'] = ['[', 'I', 'i', ']', '[', 'F', 'f', ']', '[', '_', '_', ']'] := by
  decide +kernel

/-!
## Keyword literals

A keyword stands on its line between two quotes. The first quote of the line opens the literal unless
a comment begins before it, and the next quote closes it; without one there is no literal. Nothing
escapes a quote, and a comment marker between the quotes is part of the keyword.

A literal is told by the byte offsets of its quotes. `Span.part?` takes the line apart at them.
-/

/-- The character that opens and closes a literal. -/
def quote : Char := '\x27'

/-- What begins a comment that reaches to the end of the line. -/
def commentMarker : Text := ['/', '/']

/-- The places of a literal's quotes in its line. -/
structure Span where
  /-- The byte offset of the quote that opens it. -/
  opening : Nat
  /-- The byte offset of the quote that closes it. -/
  closing : Nat
deriving DecidableEq, Repr

/-- A line taken apart at its literal, whose quotes belong to none of the three. -/
structure Parted where
  before : Text
  body : Text
  after : Text
deriving DecidableEq, Repr

def Parted.line (p : Parted) : Text :=
  p.before ++ quote :: p.body ++ quote :: p.after

/-- The text strictly between the two places. It needs them to be places in the line that leave room for
the quote, whether or not quotes stand there. -/
def Span.text? (s : Span) (line : Text) : Option Text :=
  line.slice? (s.opening + quote.utf8Size) s.closing

def Span.part? (s : Span) (line : Text) : Option Parted := do
  let before ← line.takeBytes? s.opening
  let body ← s.text? line
  let after ← line.dropBytes? (s.closing + quote.utf8Size)
  return ⟨before, body, after⟩

/-- The first literal of a line. -/
def find? (line : Text) : Option Span := do
  let opening ← Text.offset? [quote] line
  if (Text.offset? commentMarker line).any (· < opening) then none
  let bodyStart := opening + quote.utf8Size
  let rest ← line.dropBytes? bodyStart
  let width ← Text.offset? [quote] rest
  return ⟨opening, bodyStart + width⟩

end Literal

/-!
## Rewriting a line

The first literal of a line gives way, quotes included, to the expansion of its keyword. Everything
else on the line stays, its end included, and a line without a literal stays as it is.
-/

namespace Line

/-- The line with its literal expanded, if it has one. -/
def rewrite? (line : Text) : Option Text := do
  let span ← Literal.find? line
  let parted ← span.part? line
  return parted.before ++ Literal.expand parted.body ++ parted.after

/-- The line with its literal expanded; without one, the line itself. -/
def rewrite (line : Text) : Text :=
  (rewrite? line).getD line

example : rewrite ['K', ':', '\x27', 'k', '\x27', ';'] = ['K', ':', '[', 'K', 'k', ']', ';'] := by
  decide +kernel

/-!
## Rewriting in one pass

A machine that reads a line once, from left to right, and remembers one thing besides the keyword it is
collecting: whether the last character it copied was a slash.
-/

/-- What the machine made of a line, and whether it met both quotes of a literal. -/
structure Scanned where
  text : Text
  closed : Bool
deriving DecidableEq, Repr

namespace Scanned

def cons (c : Char) (s : Scanned) : Scanned :=
  { s with text := c :: s.text }

end Scanned

/-- After the opening quote: collects the keyword, latest character first. A second quote ends the search,
and the line that follows is copied; the end of the line gives back what was read. -/
def scanKeyword (keyword : Text) : Text → Scanned
  | [] => ⟨Literal.quote :: keyword.reverse, false⟩
  | c :: rest =>
    if c = Literal.quote then ⟨Literal.expand keyword.reverse ++ rest, true⟩
    else scanKeyword (c :: keyword) rest

/-- Outside a literal: copies characters up to a quote. A second slash in a row begins a comment, and all
that is left is copied. -/
def scanOutside (afterSlash : Bool) : Text → Scanned
  | [] => ⟨[], false⟩
  | c :: rest =>
    if c = '/' && afterSlash then ⟨c :: rest, false⟩
    else if c = Literal.quote then scanKeyword [] rest
    else (scanOutside (c = '/') rest).cons c

def scan (line : Text) : Scanned :=
  scanOutside false line

end Line

end AnyCase
