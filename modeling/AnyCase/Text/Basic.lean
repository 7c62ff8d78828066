/-!
# Texts and bytes

The two kinds of sequence that everything else works on: characters, and the bytes that encode them. A place in a text
is told by the number of bytes before it.
-/

namespace AnyCase

/-- A text: characters in their order, U+0000 included. Nothing about it is normalised. -/
abbrev Text := List Char

abbrev Bytes := List UInt8

/-!
## UTF-8

Texts as bytes and back. The reader is a machine that takes one byte at a time and keeps the
character it is in the middle of, so that what it makes of a sequence does not depend on how the
bytes arrive. It cuts every sequence into `Part`s: characters, and ill-formed parts that are as long
as they can be while they still begin some character. A sequence is well-formed if no part is
ill-formed; shown to people, an ill-formed part becomes one replacement character.
-/

namespace Utf8

def encode (t : Text) : Bytes :=
  t.flatMap String.utf8EncodeChar

def size (t : Text) : Nat :=
  t.foldr (fun c n => c.utf8Size + n) 0

/-- A stretch of a byte sequence that is read as a whole. -/
inductive Part where
  | char (c : Char)
  /-- Bytes that begin a character, or could not even begin one, and do not go on as one. -/
  | illFormed
deriving DecidableEq, Repr

/-- The state inside a character: the bits so far, the bounds of the next byte, and how many more bytes
are due after that one. -/
structure Pending where
  bits : Nat
  low : UInt8
  high : UInt8
  due : Nat
deriving DecidableEq, Repr

/-- What the first byte of a character of several bytes promises. The bounds of the second byte exclude
longer forms than needed, surrogates, and code points above the last one. -/
def lead? (b : UInt8) : Option Pending :=
  if b < 0xC2 then none
  else if b < 0xE0 then some ⟨b.toNat % 32, 0x80, 0xBF, 0⟩
  else if b < 0xF0 then
    some ⟨b.toNat % 16, if b = 0xE0 then 0xA0 else 0x80, if b = 0xED then 0x9F else 0xBF, 1⟩
  else if b < 0xF5 then
    some ⟨b.toNat % 8, if b = 0xF0 then 0x90 else 0x80, if b = 0xF4 then 0x8F else 0xBF, 2⟩
  else none

/-- The reader between two bytes: the parts read so far, latest first, and the character it is in. -/
structure Reader where
  parts : List Part
  pending : Option Pending
deriving DecidableEq, Repr

namespace Reader

def start : Reader := ⟨[], none⟩

/-- Takes a byte where a character may begin. -/
def begin (parts : List Part) (b : UInt8) : Reader :=
  if b < 0x80 then ⟨.char (Char.ofNat b.toNat) :: parts, none⟩
  else
    match lead? b with
    | some p => ⟨parts, some p⟩
    | none => ⟨.illFormed :: parts, none⟩

/-- Takes a byte. One that does not continue the character at hand ends it as ill-formed and begins
anew. -/
def push (r : Reader) (b : UInt8) : Reader :=
  match r.pending with
  | none => begin r.parts b
  | some p =>
    if p.low ≤ b ∧ b ≤ p.high then
      let bits := p.bits * 64 + b.toNat % 64
      match p.due with
      | 0 => ⟨.char (Char.ofNat bits) :: r.parts, none⟩
      | n + 1 => ⟨r.parts, some ⟨bits, 0x80, 0xBF, n⟩⟩
    else
      begin (.illFormed :: r.parts) b

/-- The parts in their order, once there are no more bytes. -/
def finish (r : Reader) : List Part :=
  match r.pending with
  | none => r.parts.reverse
  | some _ => (.illFormed :: r.parts).reverse

end Reader

def parts (bs : Bytes) : List Part :=
  (bs.foldl Reader.push Reader.start).finish

/-- The character that stands for an ill-formed part. -/
def replacement : Char := '\uFFFD'

def Part.char? : Part → Option Char
  | .char c => some c
  | .illFormed => none

/-- The text of well-formed bytes. -/
def decode? (bs : Bytes) : Option Text :=
  (parts bs).mapM Part.char?

/-- The text of any bytes, with one replacement character for each ill-formed part. -/
def display (bs : Bytes) : Text :=
  (parts bs).map fun p => p.char?.getD replacement

@[simp] theorem encode_nil : encode [] = [] := rfl

@[simp] theorem encode_cons (c : Char) (t : Text) :
    encode (c :: t) = String.utf8EncodeChar c ++ encode t := by
  simp [encode]

@[simp] theorem encode_append (s t : Text) : encode (s ++ t) = encode s ++ encode t := by
  simp [encode]

theorem encode_flatten (texts : List Text) : encode texts.flatten = (texts.map encode).flatten := by
  induction texts with
  | nil => rfl
  | cons text texts ih => rw [List.flatten_cons, encode_append, ih, List.map_cons, List.flatten_cons]

@[simp] theorem size_nil : size [] = 0 := rfl

@[simp] theorem size_cons (c : Char) (t : Text) : size (c :: t) = c.utf8Size + size t := rfl

@[simp] theorem size_append (s t : Text) : size (s ++ t) = size s + size t := by
  induction s with
  | nil => simp
  | cons c s ih => rw [List.cons_append, size_cons, size_cons, ih, Nat.add_assoc]

theorem length_encode (t : Text) : (encode t).length = size t := by
  induction t with
  | nil => rfl
  | cons c t ih => simp [ih]

example : decode? [0x65, 0xCC, 0x81] = some ['e', '\u0301'] := by decide

example : decode? [0xED, 0xA0, 0x80] = none := by decide

example : display [0xF0, 0x9F, 0x98, 0x2E, 0xC0, 0xAF] = ['\uFFFD', '.', '\uFFFD', '\uFFFD'] := by
  decide

end Utf8

/-!
## Byte offsets in a text

Places in a text are named by the number of bytes before them, as its encoding has them. An offset can
lie past the end, or inside a character of several bytes; cutting a text there has no result.
-/

namespace Text

open Utf8

/-- The text before the byte offset `n` and the text from there on. -/
def splitAtByte? (n : Nat) (t : Text) : Option (Text × Text) :=
  go n [] t
where
  /-- Moves characters from `rest` to `before`, latest first, until `n` more bytes are moved. -/
  go : Nat → Text → Text → Option (Text × Text)
    | 0, before, rest => some (before.reverse, rest)
    | _ + 1, _, [] => none
    | n + 1, before, c :: rest =>
      if c.utf8Size ≤ n + 1 then go (n + 1 - c.utf8Size) (c :: before) rest else none

def takeBytes? (n : Nat) (t : Text) : Option Text :=
  (splitAtByte? n t).map (·.1)

def dropBytes? (n : Nat) (t : Text) : Option Text :=
  (splitAtByte? n t).map (·.2)

/-- The text between two byte offsets. It needs both to be places in the text, in this order. -/
def slice? (first last : Nat) (t : Text) : Option Text :=
  if first ≤ last then (dropBytes? first t).bind (takeBytes? (last - first)) else none

/-- The byte offset at which `needle` first occurs. -/
def offset? (needle t : Text) : Option Nat :=
  go 0 t
where
  /-- Searches the text that begins at the offset `pos`. -/
  go (pos : Nat) : Text → Option Nat
    | [] => if needle.isEmpty then some pos else none
    | c :: t => if needle.isPrefixOf (c :: t) then some pos else go (pos + c.utf8Size) t

theorem splitAtByte?.go_eq_some_iff {n : Nat} {before rest a b : Text} :
    splitAtByte?.go n before rest = some (a, b) ↔
      ∃ s, a = before.reverse ++ s ∧ rest = s ++ b ∧ size s = n := by
  induction rest generalizing n before with
  | nil =>
    cases n with
    | zero =>
      constructor
      · simp only [go, Option.some.injEq, Prod.mk.injEq]
        rintro ⟨rfl, rfl⟩
        exact ⟨[], by simp⟩
      · rintro ⟨s, rfl, hs, -⟩
        obtain ⟨rfl, rfl⟩ := List.nil_eq_append_iff.1 hs
        simp [go]
    | succ n =>
      constructor
      · simp [go]
      · rintro ⟨s, -, hs, hn⟩
        obtain ⟨rfl, -⟩ := List.nil_eq_append_iff.1 hs
        simp at hn
  | cons c rest ih =>
    cases n with
    | zero =>
      constructor
      · simp only [go, Option.some.injEq, Prod.mk.injEq]
        rintro ⟨rfl, rfl⟩
        exact ⟨[], by simp⟩
      · rintro ⟨s, rfl, hs, hn⟩
        cases s with
        | nil => simpa [go] using hs
        | cons d s =>
          have := d.utf8Size_pos
          simp only [size_cons] at hn
          omega
    | succ n =>
      have hc := c.utf8Size_pos
      constructor
      · intro h
        simp only [go] at h
        split at h
        · next fits =>
          obtain ⟨s, rfl, rfl, hn⟩ := ih.1 h
          exact ⟨c :: s, by simp, by simp, by rw [size_cons]; omega⟩
        · contradiction
      · rintro ⟨s, rfl, hs, hn⟩
        cases s with
        | nil => simp at hn
        | cons d s =>
          simp only [List.cons_append, List.cons.injEq] at hs
          obtain ⟨rfl, rfl⟩ := hs
          simp only [size_cons] at hn
          simp only [go, if_pos (show c.utf8Size ≤ n + 1 by omega)]
          exact ih.2 ⟨s, by simp, rfl, by omega⟩

/-- A text can be cut exactly at the sizes of its beginnings. -/
theorem splitAtByte?_eq_some_iff {n : Nat} {t a b : Text} :
    splitAtByte? n t = some (a, b) ↔ t = a ++ b ∧ size a = n := by
  rw [splitAtByte?, splitAtByte?.go_eq_some_iff]
  constructor
  · rintro ⟨s, rfl, rfl, hn⟩
    simpa using hn
  · rintro ⟨rfl, hn⟩
    exact ⟨a, by simp, rfl, hn⟩

example : splitAtByte? 3 ['a', 'é', '(', ')'] = some (['a', 'é'], ['(', ')']) := by decide

example : splitAtByte? 2 ['a', 'é', '(', ')'] = none := by decide

end Text

end AnyCase
