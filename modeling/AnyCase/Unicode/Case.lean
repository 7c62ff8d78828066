import AnyCase.Text.Basic

/-!
# Upper and lower case

The case mappings of Unicode 17.0.0, first as tables of code points, then on characters and texts.
-/

/-!
## The case mappings of Unicode 17.0.0

The full, locale-free mappings of single characters to upper and to lower case, as data, block by
block. A character that occurs in no block of a table stands for itself.

Most mappings come in stretches: the letters of an alphabet lie at one distance from their
counterparts, and in many blocks capital and small letters alternate. A `Run` holds such a stretch.
The mappings to several characters stand apart, as `expansions`.

Code points are plain numbers here, so that a question about all entries of a table is arithmetic.
-/

namespace AnyCase.Unicode

/-- The code points `first`, `first + step`, … up to `last`, of which `first` is mapped to `target` and
every other one lies as far from `first` as its counterpart from `target`. -/
structure Run where
  first : Nat
  last : Nat
  step : Nat
  target : Nat
deriving DecidableEq, Repr

/-- The counterpart of `code`, if it lies on the run. -/
def Run.map? (r : Run) (code : Nat) : Option Nat :=
  if r.first ≤ code && code ≤ r.last && (code - r.first) % r.step == 0 then
    some (r.target + (code - r.first))
  else
    none

/-- The mappings of the code points from `first` to `last`: those to one code point, and those to
several. -/
structure Block where
  first : Nat
  last : Nat
  runs : List Run := []
  expansions : List (Nat × List Nat) := []
deriving DecidableEq, Repr

/-- The code points that `code` is mapped to; itself alone where the block is silent. -/
def Block.map (b : Block) (code : Nat) : List Nat :=
  match b.expansions.lookup code with
  | some codes => codes
  | none => [(b.runs.findSome? (·.map? code)).getD code]

/-- A case mapping, as blocks that have no code point in common. -/
abbrev CaseTable := List Block

/-- The code points that `code` is mapped to; itself alone outside every block. -/
def CaseTable.map (t : CaseTable) (code : Nat) : List Nat :=
  match t.find? fun b => b.first ≤ code && code ≤ b.last with
  | some b => b.map code
  | none => [code]

/-- The mapping to upper case. -/
def upperTable : CaseTable := [
    -- Basic Latin
    { first := 0x0000
      last := 0x007F
      runs := [⟨0x0061, 0x007A, 1, 0x0041⟩] },
    -- Latin-1 Supplement
    { first := 0x0080
      last := 0x00FF
      runs := [⟨0x00B5, 0x00B5, 1, 0x039C⟩, ⟨0x00E0, 0x00F6, 1, 0x00C0⟩,
        ⟨0x00F8, 0x00FE, 1, 0x00D8⟩, ⟨0x00FF, 0x00FF, 1, 0x0178⟩]
      expansions := [(0x00DF, [0x0053, 0x0053])] },
    -- Latin Extended-A
    { first := 0x0100
      last := 0x017F
      runs := [⟨0x0101, 0x012F, 2, 0x0100⟩, ⟨0x0131, 0x0131, 1, 0x0049⟩,
        ⟨0x0133, 0x0137, 2, 0x0132⟩, ⟨0x013A, 0x0148, 2, 0x0139⟩, ⟨0x014B, 0x0177, 2, 0x014A⟩,
        ⟨0x017A, 0x017E, 2, 0x0179⟩, ⟨0x017F, 0x017F, 1, 0x0053⟩]
      expansions := [(0x0149, [0x02BC, 0x004E])] },
    -- Latin Extended-B
    { first := 0x0180
      last := 0x024F
      runs := [⟨0x0180, 0x0180, 1, 0x0243⟩, ⟨0x0183, 0x0185, 2, 0x0182⟩,
        ⟨0x0188, 0x0188, 1, 0x0187⟩, ⟨0x018C, 0x018C, 1, 0x018B⟩, ⟨0x0192, 0x0192, 1, 0x0191⟩,
        ⟨0x0195, 0x0195, 1, 0x01F6⟩, ⟨0x0199, 0x0199, 1, 0x0198⟩, ⟨0x019A, 0x019A, 1, 0x023D⟩,
        ⟨0x019B, 0x019B, 1, 0xA7DC⟩, ⟨0x019E, 0x019E, 1, 0x0220⟩, ⟨0x01A1, 0x01A5, 2, 0x01A0⟩,
        ⟨0x01A8, 0x01A8, 1, 0x01A7⟩, ⟨0x01AD, 0x01AD, 1, 0x01AC⟩, ⟨0x01B0, 0x01B0, 1, 0x01AF⟩,
        ⟨0x01B4, 0x01B6, 2, 0x01B3⟩, ⟨0x01B9, 0x01B9, 1, 0x01B8⟩, ⟨0x01BD, 0x01BD, 1, 0x01BC⟩,
        ⟨0x01BF, 0x01BF, 1, 0x01F7⟩, ⟨0x01C5, 0x01C5, 1, 0x01C4⟩, ⟨0x01C6, 0x01C6, 1, 0x01C4⟩,
        ⟨0x01C8, 0x01C8, 1, 0x01C7⟩, ⟨0x01C9, 0x01C9, 1, 0x01C7⟩, ⟨0x01CB, 0x01CB, 1, 0x01CA⟩,
        ⟨0x01CC, 0x01CC, 1, 0x01CA⟩, ⟨0x01CE, 0x01DC, 2, 0x01CD⟩, ⟨0x01DD, 0x01DD, 1, 0x018E⟩,
        ⟨0x01DF, 0x01EF, 2, 0x01DE⟩, ⟨0x01F2, 0x01F2, 1, 0x01F1⟩, ⟨0x01F3, 0x01F3, 1, 0x01F1⟩,
        ⟨0x01F5, 0x01F5, 1, 0x01F4⟩, ⟨0x01F9, 0x021F, 2, 0x01F8⟩, ⟨0x0223, 0x0233, 2, 0x0222⟩,
        ⟨0x023C, 0x023C, 1, 0x023B⟩, ⟨0x023F, 0x0240, 1, 0x2C7E⟩, ⟨0x0242, 0x0242, 1, 0x0241⟩,
        ⟨0x0247, 0x024F, 2, 0x0246⟩]
      expansions := [(0x01F0, [0x004A, 0x030C])] },
    -- IPA Extensions
    { first := 0x0250
      last := 0x02AF
      runs := [⟨0x0250, 0x0250, 1, 0x2C6F⟩, ⟨0x0251, 0x0251, 1, 0x2C6D⟩,
        ⟨0x0252, 0x0252, 1, 0x2C70⟩, ⟨0x0253, 0x0253, 1, 0x0181⟩, ⟨0x0254, 0x0254, 1, 0x0186⟩,
        ⟨0x0256, 0x0257, 1, 0x0189⟩, ⟨0x0259, 0x0259, 1, 0x018F⟩, ⟨0x025B, 0x025B, 1, 0x0190⟩,
        ⟨0x025C, 0x025C, 1, 0xA7AB⟩, ⟨0x0260, 0x0260, 1, 0x0193⟩, ⟨0x0261, 0x0261, 1, 0xA7AC⟩,
        ⟨0x0263, 0x0263, 1, 0x0194⟩, ⟨0x0264, 0x0264, 1, 0xA7CB⟩, ⟨0x0265, 0x0265, 1, 0xA78D⟩,
        ⟨0x0266, 0x0266, 1, 0xA7AA⟩, ⟨0x0268, 0x0268, 1, 0x0197⟩, ⟨0x0269, 0x0269, 1, 0x0196⟩,
        ⟨0x026A, 0x026A, 1, 0xA7AE⟩, ⟨0x026B, 0x026B, 1, 0x2C62⟩, ⟨0x026C, 0x026C, 1, 0xA7AD⟩,
        ⟨0x026F, 0x026F, 1, 0x019C⟩, ⟨0x0271, 0x0271, 1, 0x2C6E⟩, ⟨0x0272, 0x0272, 1, 0x019D⟩,
        ⟨0x0275, 0x0275, 1, 0x019F⟩, ⟨0x027D, 0x027D, 1, 0x2C64⟩, ⟨0x0280, 0x0280, 1, 0x01A6⟩,
        ⟨0x0282, 0x0282, 1, 0xA7C5⟩, ⟨0x0283, 0x0283, 1, 0x01A9⟩, ⟨0x0287, 0x0287, 1, 0xA7B1⟩,
        ⟨0x0288, 0x0288, 1, 0x01AE⟩, ⟨0x0289, 0x0289, 1, 0x0244⟩, ⟨0x028A, 0x028B, 1, 0x01B1⟩,
        ⟨0x028C, 0x028C, 1, 0x0245⟩, ⟨0x0292, 0x0292, 1, 0x01B7⟩, ⟨0x029D, 0x029D, 1, 0xA7B2⟩,
        ⟨0x029E, 0x029E, 1, 0xA7B0⟩] },
    -- Combining Diacritical Marks
    { first := 0x0300
      last := 0x036F
      runs := [⟨0x0345, 0x0345, 1, 0x0399⟩] },
    -- Greek and Coptic
    { first := 0x0370
      last := 0x03FF
      runs := [⟨0x0371, 0x0373, 2, 0x0370⟩, ⟨0x0377, 0x0377, 1, 0x0376⟩,
        ⟨0x037B, 0x037D, 1, 0x03FD⟩, ⟨0x03AC, 0x03AC, 1, 0x0386⟩, ⟨0x03AD, 0x03AF, 1, 0x0388⟩,
        ⟨0x03B1, 0x03C1, 1, 0x0391⟩, ⟨0x03C2, 0x03C2, 1, 0x03A3⟩, ⟨0x03C3, 0x03CB, 1, 0x03A3⟩,
        ⟨0x03CC, 0x03CC, 1, 0x038C⟩, ⟨0x03CD, 0x03CE, 1, 0x038E⟩, ⟨0x03D0, 0x03D0, 1, 0x0392⟩,
        ⟨0x03D1, 0x03D1, 1, 0x0398⟩, ⟨0x03D5, 0x03D5, 1, 0x03A6⟩, ⟨0x03D6, 0x03D6, 1, 0x03A0⟩,
        ⟨0x03D7, 0x03D7, 1, 0x03CF⟩, ⟨0x03D9, 0x03EF, 2, 0x03D8⟩, ⟨0x03F0, 0x03F0, 1, 0x039A⟩,
        ⟨0x03F1, 0x03F1, 1, 0x03A1⟩, ⟨0x03F2, 0x03F2, 1, 0x03F9⟩, ⟨0x03F3, 0x03F3, 1, 0x037F⟩,
        ⟨0x03F5, 0x03F5, 1, 0x0395⟩, ⟨0x03F8, 0x03F8, 1, 0x03F7⟩, ⟨0x03FB, 0x03FB, 1, 0x03FA⟩]
      expansions := [(0x0390, [0x0399, 0x0308, 0x0301]), (0x03B0, [0x03A5, 0x0308, 0x0301])] },
    -- Cyrillic
    { first := 0x0400
      last := 0x04FF
      runs := [⟨0x0430, 0x044F, 1, 0x0410⟩, ⟨0x0450, 0x045F, 1, 0x0400⟩,
        ⟨0x0461, 0x0481, 2, 0x0460⟩, ⟨0x048B, 0x04BF, 2, 0x048A⟩, ⟨0x04C2, 0x04CE, 2, 0x04C1⟩,
        ⟨0x04CF, 0x04CF, 1, 0x04C0⟩, ⟨0x04D1, 0x04FF, 2, 0x04D0⟩] },
    -- Cyrillic Supplement
    { first := 0x0500
      last := 0x052F
      runs := [⟨0x0501, 0x052F, 2, 0x0500⟩] },
    -- Armenian
    { first := 0x0530
      last := 0x058F
      runs := [⟨0x0561, 0x0586, 1, 0x0531⟩]
      expansions := [(0x0587, [0x0535, 0x0552])] },
    -- Georgian
    { first := 0x10A0
      last := 0x10FF
      runs := [⟨0x10D0, 0x10FA, 1, 0x1C90⟩, ⟨0x10FD, 0x10FF, 1, 0x1CBD⟩] },
    -- Cherokee
    { first := 0x13A0
      last := 0x13FF
      runs := [⟨0x13F8, 0x13FD, 1, 0x13F0⟩] },
    -- Cyrillic Extended-C
    { first := 0x1C80
      last := 0x1C8F
      runs := [⟨0x1C80, 0x1C80, 1, 0x0412⟩, ⟨0x1C81, 0x1C81, 1, 0x0414⟩,
        ⟨0x1C82, 0x1C82, 1, 0x041E⟩, ⟨0x1C83, 0x1C84, 1, 0x0421⟩, ⟨0x1C85, 0x1C85, 1, 0x0422⟩,
        ⟨0x1C86, 0x1C86, 1, 0x042A⟩, ⟨0x1C87, 0x1C87, 1, 0x0462⟩, ⟨0x1C88, 0x1C88, 1, 0xA64A⟩,
        ⟨0x1C8A, 0x1C8A, 1, 0x1C89⟩] },
    -- Phonetic Extensions
    { first := 0x1D00
      last := 0x1D7F
      runs := [⟨0x1D79, 0x1D79, 1, 0xA77D⟩, ⟨0x1D7D, 0x1D7D, 1, 0x2C63⟩] },
    -- Phonetic Extensions Supplement
    { first := 0x1D80
      last := 0x1DBF
      runs := [⟨0x1D8E, 0x1D8E, 1, 0xA7C6⟩] },
    -- Latin Extended Additional
    { first := 0x1E00
      last := 0x1EFF
      runs := [⟨0x1E01, 0x1E95, 2, 0x1E00⟩, ⟨0x1E9B, 0x1E9B, 1, 0x1E60⟩,
        ⟨0x1EA1, 0x1EFF, 2, 0x1EA0⟩]
      expansions := [(0x1E96, [0x0048, 0x0331]), (0x1E97, [0x0054, 0x0308]),
        (0x1E98, [0x0057, 0x030A]), (0x1E99, [0x0059, 0x030A]), (0x1E9A, [0x0041, 0x02BE])] },
    -- Greek Extended
    { first := 0x1F00
      last := 0x1FFF
      runs := [⟨0x1F00, 0x1F07, 1, 0x1F08⟩, ⟨0x1F10, 0x1F15, 1, 0x1F18⟩,
        ⟨0x1F20, 0x1F27, 1, 0x1F28⟩, ⟨0x1F30, 0x1F37, 1, 0x1F38⟩, ⟨0x1F40, 0x1F45, 1, 0x1F48⟩,
        ⟨0x1F51, 0x1F57, 2, 0x1F59⟩, ⟨0x1F60, 0x1F67, 1, 0x1F68⟩, ⟨0x1F70, 0x1F71, 1, 0x1FBA⟩,
        ⟨0x1F72, 0x1F75, 1, 0x1FC8⟩, ⟨0x1F76, 0x1F77, 1, 0x1FDA⟩, ⟨0x1F78, 0x1F79, 1, 0x1FF8⟩,
        ⟨0x1F7A, 0x1F7B, 1, 0x1FEA⟩, ⟨0x1F7C, 0x1F7D, 1, 0x1FFA⟩, ⟨0x1FB0, 0x1FB1, 1, 0x1FB8⟩,
        ⟨0x1FBE, 0x1FBE, 1, 0x0399⟩, ⟨0x1FD0, 0x1FD1, 1, 0x1FD8⟩, ⟨0x1FE0, 0x1FE1, 1, 0x1FE8⟩,
        ⟨0x1FE5, 0x1FE5, 1, 0x1FEC⟩]
      expansions := [(0x1F50, [0x03A5, 0x0313]), (0x1F52, [0x03A5, 0x0313, 0x0300]),
        (0x1F54, [0x03A5, 0x0313, 0x0301]), (0x1F56, [0x03A5, 0x0313, 0x0342]),
        (0x1F80, [0x1F08, 0x0399]), (0x1F81, [0x1F09, 0x0399]), (0x1F82, [0x1F0A, 0x0399]),
        (0x1F83, [0x1F0B, 0x0399]), (0x1F84, [0x1F0C, 0x0399]), (0x1F85, [0x1F0D, 0x0399]),
        (0x1F86, [0x1F0E, 0x0399]), (0x1F87, [0x1F0F, 0x0399]), (0x1F88, [0x1F08, 0x0399]),
        (0x1F89, [0x1F09, 0x0399]), (0x1F8A, [0x1F0A, 0x0399]), (0x1F8B, [0x1F0B, 0x0399]),
        (0x1F8C, [0x1F0C, 0x0399]), (0x1F8D, [0x1F0D, 0x0399]), (0x1F8E, [0x1F0E, 0x0399]),
        (0x1F8F, [0x1F0F, 0x0399]), (0x1F90, [0x1F28, 0x0399]), (0x1F91, [0x1F29, 0x0399]),
        (0x1F92, [0x1F2A, 0x0399]), (0x1F93, [0x1F2B, 0x0399]), (0x1F94, [0x1F2C, 0x0399]),
        (0x1F95, [0x1F2D, 0x0399]), (0x1F96, [0x1F2E, 0x0399]), (0x1F97, [0x1F2F, 0x0399]),
        (0x1F98, [0x1F28, 0x0399]), (0x1F99, [0x1F29, 0x0399]), (0x1F9A, [0x1F2A, 0x0399]),
        (0x1F9B, [0x1F2B, 0x0399]), (0x1F9C, [0x1F2C, 0x0399]), (0x1F9D, [0x1F2D, 0x0399]),
        (0x1F9E, [0x1F2E, 0x0399]), (0x1F9F, [0x1F2F, 0x0399]), (0x1FA0, [0x1F68, 0x0399]),
        (0x1FA1, [0x1F69, 0x0399]), (0x1FA2, [0x1F6A, 0x0399]), (0x1FA3, [0x1F6B, 0x0399]),
        (0x1FA4, [0x1F6C, 0x0399]), (0x1FA5, [0x1F6D, 0x0399]), (0x1FA6, [0x1F6E, 0x0399]),
        (0x1FA7, [0x1F6F, 0x0399]), (0x1FA8, [0x1F68, 0x0399]), (0x1FA9, [0x1F69, 0x0399]),
        (0x1FAA, [0x1F6A, 0x0399]), (0x1FAB, [0x1F6B, 0x0399]), (0x1FAC, [0x1F6C, 0x0399]),
        (0x1FAD, [0x1F6D, 0x0399]), (0x1FAE, [0x1F6E, 0x0399]), (0x1FAF, [0x1F6F, 0x0399]),
        (0x1FB2, [0x1FBA, 0x0399]), (0x1FB3, [0x0391, 0x0399]), (0x1FB4, [0x0386, 0x0399]),
        (0x1FB6, [0x0391, 0x0342]), (0x1FB7, [0x0391, 0x0342, 0x0399]),
        (0x1FBC, [0x0391, 0x0399]), (0x1FC2, [0x1FCA, 0x0399]), (0x1FC3, [0x0397, 0x0399]),
        (0x1FC4, [0x0389, 0x0399]), (0x1FC6, [0x0397, 0x0342]),
        (0x1FC7, [0x0397, 0x0342, 0x0399]), (0x1FCC, [0x0397, 0x0399]),
        (0x1FD2, [0x0399, 0x0308, 0x0300]), (0x1FD3, [0x0399, 0x0308, 0x0301]),
        (0x1FD6, [0x0399, 0x0342]), (0x1FD7, [0x0399, 0x0308, 0x0342]),
        (0x1FE2, [0x03A5, 0x0308, 0x0300]), (0x1FE3, [0x03A5, 0x0308, 0x0301]),
        (0x1FE4, [0x03A1, 0x0313]), (0x1FE6, [0x03A5, 0x0342]),
        (0x1FE7, [0x03A5, 0x0308, 0x0342]), (0x1FF2, [0x1FFA, 0x0399]),
        (0x1FF3, [0x03A9, 0x0399]), (0x1FF4, [0x038F, 0x0399]), (0x1FF6, [0x03A9, 0x0342]),
        (0x1FF7, [0x03A9, 0x0342, 0x0399]), (0x1FFC, [0x03A9, 0x0399])] },
    -- Letterlike Symbols
    { first := 0x2100
      last := 0x214F
      runs := [⟨0x214E, 0x214E, 1, 0x2132⟩] },
    -- Number Forms
    { first := 0x2150
      last := 0x218F
      runs := [⟨0x2170, 0x217F, 1, 0x2160⟩, ⟨0x2184, 0x2184, 1, 0x2183⟩] },
    -- Enclosed Alphanumerics
    { first := 0x2460
      last := 0x24FF
      runs := [⟨0x24D0, 0x24E9, 1, 0x24B6⟩] },
    -- Glagolitic
    { first := 0x2C00
      last := 0x2C5F
      runs := [⟨0x2C30, 0x2C5F, 1, 0x2C00⟩] },
    -- Latin Extended-C
    { first := 0x2C60
      last := 0x2C7F
      runs := [⟨0x2C61, 0x2C61, 1, 0x2C60⟩, ⟨0x2C65, 0x2C65, 1, 0x023A⟩,
        ⟨0x2C66, 0x2C66, 1, 0x023E⟩, ⟨0x2C68, 0x2C6C, 2, 0x2C67⟩, ⟨0x2C73, 0x2C73, 1, 0x2C72⟩,
        ⟨0x2C76, 0x2C76, 1, 0x2C75⟩] },
    -- Coptic
    { first := 0x2C80
      last := 0x2CFF
      runs := [⟨0x2C81, 0x2CE3, 2, 0x2C80⟩, ⟨0x2CEC, 0x2CEE, 2, 0x2CEB⟩,
        ⟨0x2CF3, 0x2CF3, 1, 0x2CF2⟩] },
    -- Georgian Supplement
    { first := 0x2D00
      last := 0x2D2F
      runs := [⟨0x2D00, 0x2D25, 1, 0x10A0⟩, ⟨0x2D27, 0x2D27, 1, 0x10C7⟩,
        ⟨0x2D2D, 0x2D2D, 1, 0x10CD⟩] },
    -- Cyrillic Extended-B
    { first := 0xA640
      last := 0xA69F
      runs := [⟨0xA641, 0xA66D, 2, 0xA640⟩, ⟨0xA681, 0xA69B, 2, 0xA680⟩] },
    -- Latin Extended-D
    { first := 0xA720
      last := 0xA7FF
      runs := [⟨0xA723, 0xA72F, 2, 0xA722⟩, ⟨0xA733, 0xA76F, 2, 0xA732⟩,
        ⟨0xA77A, 0xA77C, 2, 0xA779⟩, ⟨0xA77F, 0xA787, 2, 0xA77E⟩, ⟨0xA78C, 0xA78C, 1, 0xA78B⟩,
        ⟨0xA791, 0xA793, 2, 0xA790⟩, ⟨0xA794, 0xA794, 1, 0xA7C4⟩, ⟨0xA797, 0xA7A9, 2, 0xA796⟩,
        ⟨0xA7B5, 0xA7C3, 2, 0xA7B4⟩, ⟨0xA7C8, 0xA7CA, 2, 0xA7C7⟩, ⟨0xA7CD, 0xA7DB, 2, 0xA7CC⟩,
        ⟨0xA7F6, 0xA7F6, 1, 0xA7F5⟩] },
    -- Latin Extended-E
    { first := 0xAB30
      last := 0xAB6F
      runs := [⟨0xAB53, 0xAB53, 1, 0xA7B3⟩] },
    -- Cherokee Supplement
    { first := 0xAB70
      last := 0xABBF
      runs := [⟨0xAB70, 0xABBF, 1, 0x13A0⟩] },
    -- Alphabetic Presentation Forms
    { first := 0xFB00
      last := 0xFB4F
      expansions := [(0xFB00, [0x0046, 0x0046]), (0xFB01, [0x0046, 0x0049]),
        (0xFB02, [0x0046, 0x004C]), (0xFB03, [0x0046, 0x0046, 0x0049]),
        (0xFB04, [0x0046, 0x0046, 0x004C]), (0xFB05, [0x0053, 0x0054]),
        (0xFB06, [0x0053, 0x0054]), (0xFB13, [0x0544, 0x0546]), (0xFB14, [0x0544, 0x0535]),
        (0xFB15, [0x0544, 0x053B]), (0xFB16, [0x054E, 0x0546]), (0xFB17, [0x0544, 0x053D])] },
    -- Halfwidth and Fullwidth Forms
    { first := 0xFF00
      last := 0xFFEF
      runs := [⟨0xFF41, 0xFF5A, 1, 0xFF21⟩] },
    -- Deseret
    { first := 0x10400
      last := 0x1044F
      runs := [⟨0x10428, 0x1044F, 1, 0x10400⟩] },
    -- Osage
    { first := 0x104B0
      last := 0x104FF
      runs := [⟨0x104D8, 0x104FB, 1, 0x104B0⟩] },
    -- Vithkuqi
    { first := 0x10570
      last := 0x105BF
      runs := [⟨0x10597, 0x105A1, 1, 0x10570⟩, ⟨0x105A3, 0x105B1, 1, 0x1057C⟩,
        ⟨0x105B3, 0x105B9, 1, 0x1058C⟩, ⟨0x105BB, 0x105BC, 1, 0x10594⟩] },
    -- Old Hungarian
    { first := 0x10C80
      last := 0x10CFF
      runs := [⟨0x10CC0, 0x10CF2, 1, 0x10C80⟩] },
    -- Garay
    { first := 0x10D40
      last := 0x10D8F
      runs := [⟨0x10D70, 0x10D85, 1, 0x10D50⟩] },
    -- Warang Citi
    { first := 0x118A0
      last := 0x118FF
      runs := [⟨0x118C0, 0x118DF, 1, 0x118A0⟩] },
    -- Medefaidrin
    { first := 0x16E40
      last := 0x16E9F
      runs := [⟨0x16E60, 0x16E7F, 1, 0x16E40⟩] },
    -- Beria Erfe
    { first := 0x16EA0
      last := 0x16EDF
      runs := [⟨0x16EBB, 0x16ED3, 1, 0x16EA0⟩] },
    -- Adlam
    { first := 0x1E900
      last := 0x1E95F
      runs := [⟨0x1E922, 0x1E943, 1, 0x1E900⟩] }
  ]

/-- The mapping to lower case, of a character on its own: a sigma has one small form, wherever it
stands. -/
def lowerTable : CaseTable := [
    -- Basic Latin
    { first := 0x0000
      last := 0x007F
      runs := [⟨0x0041, 0x005A, 1, 0x0061⟩] },
    -- Latin-1 Supplement
    { first := 0x0080
      last := 0x00FF
      runs := [⟨0x00C0, 0x00D6, 1, 0x00E0⟩, ⟨0x00D8, 0x00DE, 1, 0x00F8⟩] },
    -- Latin Extended-A
    { first := 0x0100
      last := 0x017F
      runs := [⟨0x0100, 0x012E, 2, 0x0101⟩, ⟨0x0132, 0x0136, 2, 0x0133⟩,
        ⟨0x0139, 0x0147, 2, 0x013A⟩, ⟨0x014A, 0x0176, 2, 0x014B⟩, ⟨0x0178, 0x0178, 1, 0x00FF⟩,
        ⟨0x0179, 0x017D, 2, 0x017A⟩]
      expansions := [(0x0130, [0x0069, 0x0307])] },
    -- Latin Extended-B
    { first := 0x0180
      last := 0x024F
      runs := [⟨0x0181, 0x0181, 1, 0x0253⟩, ⟨0x0182, 0x0184, 2, 0x0183⟩,
        ⟨0x0186, 0x0186, 1, 0x0254⟩, ⟨0x0187, 0x0187, 1, 0x0188⟩, ⟨0x0189, 0x018A, 1, 0x0256⟩,
        ⟨0x018B, 0x018B, 1, 0x018C⟩, ⟨0x018E, 0x018E, 1, 0x01DD⟩, ⟨0x018F, 0x018F, 1, 0x0259⟩,
        ⟨0x0190, 0x0190, 1, 0x025B⟩, ⟨0x0191, 0x0191, 1, 0x0192⟩, ⟨0x0193, 0x0193, 1, 0x0260⟩,
        ⟨0x0194, 0x0194, 1, 0x0263⟩, ⟨0x0196, 0x0196, 1, 0x0269⟩, ⟨0x0197, 0x0197, 1, 0x0268⟩,
        ⟨0x0198, 0x0198, 1, 0x0199⟩, ⟨0x019C, 0x019C, 1, 0x026F⟩, ⟨0x019D, 0x019D, 1, 0x0272⟩,
        ⟨0x019F, 0x019F, 1, 0x0275⟩, ⟨0x01A0, 0x01A4, 2, 0x01A1⟩, ⟨0x01A6, 0x01A6, 1, 0x0280⟩,
        ⟨0x01A7, 0x01A7, 1, 0x01A8⟩, ⟨0x01A9, 0x01A9, 1, 0x0283⟩, ⟨0x01AC, 0x01AC, 1, 0x01AD⟩,
        ⟨0x01AE, 0x01AE, 1, 0x0288⟩, ⟨0x01AF, 0x01AF, 1, 0x01B0⟩, ⟨0x01B1, 0x01B2, 1, 0x028A⟩,
        ⟨0x01B3, 0x01B5, 2, 0x01B4⟩, ⟨0x01B7, 0x01B7, 1, 0x0292⟩, ⟨0x01B8, 0x01B8, 1, 0x01B9⟩,
        ⟨0x01BC, 0x01BC, 1, 0x01BD⟩, ⟨0x01C4, 0x01C4, 1, 0x01C6⟩, ⟨0x01C5, 0x01C5, 1, 0x01C6⟩,
        ⟨0x01C7, 0x01C7, 1, 0x01C9⟩, ⟨0x01C8, 0x01C8, 1, 0x01C9⟩, ⟨0x01CA, 0x01CA, 1, 0x01CC⟩,
        ⟨0x01CB, 0x01DB, 2, 0x01CC⟩, ⟨0x01DE, 0x01EE, 2, 0x01DF⟩, ⟨0x01F1, 0x01F1, 1, 0x01F3⟩,
        ⟨0x01F2, 0x01F4, 2, 0x01F3⟩, ⟨0x01F6, 0x01F6, 1, 0x0195⟩, ⟨0x01F7, 0x01F7, 1, 0x01BF⟩,
        ⟨0x01F8, 0x021E, 2, 0x01F9⟩, ⟨0x0220, 0x0220, 1, 0x019E⟩, ⟨0x0222, 0x0232, 2, 0x0223⟩,
        ⟨0x023A, 0x023A, 1, 0x2C65⟩, ⟨0x023B, 0x023B, 1, 0x023C⟩, ⟨0x023D, 0x023D, 1, 0x019A⟩,
        ⟨0x023E, 0x023E, 1, 0x2C66⟩, ⟨0x0241, 0x0241, 1, 0x0242⟩, ⟨0x0243, 0x0243, 1, 0x0180⟩,
        ⟨0x0244, 0x0244, 1, 0x0289⟩, ⟨0x0245, 0x0245, 1, 0x028C⟩, ⟨0x0246, 0x024E, 2, 0x0247⟩] },
    -- Greek and Coptic
    { first := 0x0370
      last := 0x03FF
      runs := [⟨0x0370, 0x0372, 2, 0x0371⟩, ⟨0x0376, 0x0376, 1, 0x0377⟩,
        ⟨0x037F, 0x037F, 1, 0x03F3⟩, ⟨0x0386, 0x0386, 1, 0x03AC⟩, ⟨0x0388, 0x038A, 1, 0x03AD⟩,
        ⟨0x038C, 0x038C, 1, 0x03CC⟩, ⟨0x038E, 0x038F, 1, 0x03CD⟩, ⟨0x0391, 0x03A1, 1, 0x03B1⟩,
        ⟨0x03A3, 0x03AB, 1, 0x03C3⟩, ⟨0x03CF, 0x03CF, 1, 0x03D7⟩, ⟨0x03D8, 0x03EE, 2, 0x03D9⟩,
        ⟨0x03F4, 0x03F4, 1, 0x03B8⟩, ⟨0x03F7, 0x03F7, 1, 0x03F8⟩, ⟨0x03F9, 0x03F9, 1, 0x03F2⟩,
        ⟨0x03FA, 0x03FA, 1, 0x03FB⟩, ⟨0x03FD, 0x03FF, 1, 0x037B⟩] },
    -- Cyrillic
    { first := 0x0400
      last := 0x04FF
      runs := [⟨0x0400, 0x040F, 1, 0x0450⟩, ⟨0x0410, 0x042F, 1, 0x0430⟩,
        ⟨0x0460, 0x0480, 2, 0x0461⟩, ⟨0x048A, 0x04BE, 2, 0x048B⟩, ⟨0x04C0, 0x04C0, 1, 0x04CF⟩,
        ⟨0x04C1, 0x04CD, 2, 0x04C2⟩, ⟨0x04D0, 0x04FE, 2, 0x04D1⟩] },
    -- Cyrillic Supplement
    { first := 0x0500
      last := 0x052F
      runs := [⟨0x0500, 0x052E, 2, 0x0501⟩] },
    -- Armenian
    { first := 0x0530
      last := 0x058F
      runs := [⟨0x0531, 0x0556, 1, 0x0561⟩] },
    -- Georgian
    { first := 0x10A0
      last := 0x10FF
      runs := [⟨0x10A0, 0x10C5, 1, 0x2D00⟩, ⟨0x10C7, 0x10C7, 1, 0x2D27⟩,
        ⟨0x10CD, 0x10CD, 1, 0x2D2D⟩] },
    -- Cherokee
    { first := 0x13A0
      last := 0x13FF
      runs := [⟨0x13A0, 0x13EF, 1, 0xAB70⟩, ⟨0x13F0, 0x13F5, 1, 0x13F8⟩] },
    -- Cyrillic Extended-C
    { first := 0x1C80
      last := 0x1C8F
      runs := [⟨0x1C89, 0x1C89, 1, 0x1C8A⟩] },
    -- Georgian Extended
    { first := 0x1C90
      last := 0x1CBF
      runs := [⟨0x1C90, 0x1CBA, 1, 0x10D0⟩, ⟨0x1CBD, 0x1CBF, 1, 0x10FD⟩] },
    -- Latin Extended Additional
    { first := 0x1E00
      last := 0x1EFF
      runs := [⟨0x1E00, 0x1E94, 2, 0x1E01⟩, ⟨0x1E9E, 0x1E9E, 1, 0x00DF⟩,
        ⟨0x1EA0, 0x1EFE, 2, 0x1EA1⟩] },
    -- Greek Extended
    { first := 0x1F00
      last := 0x1FFF
      runs := [⟨0x1F08, 0x1F0F, 1, 0x1F00⟩, ⟨0x1F18, 0x1F1D, 1, 0x1F10⟩,
        ⟨0x1F28, 0x1F2F, 1, 0x1F20⟩, ⟨0x1F38, 0x1F3F, 1, 0x1F30⟩, ⟨0x1F48, 0x1F4D, 1, 0x1F40⟩,
        ⟨0x1F59, 0x1F5F, 2, 0x1F51⟩, ⟨0x1F68, 0x1F6F, 1, 0x1F60⟩, ⟨0x1F88, 0x1F8F, 1, 0x1F80⟩,
        ⟨0x1F98, 0x1F9F, 1, 0x1F90⟩, ⟨0x1FA8, 0x1FAF, 1, 0x1FA0⟩, ⟨0x1FB8, 0x1FB9, 1, 0x1FB0⟩,
        ⟨0x1FBA, 0x1FBB, 1, 0x1F70⟩, ⟨0x1FBC, 0x1FBC, 1, 0x1FB3⟩, ⟨0x1FC8, 0x1FCB, 1, 0x1F72⟩,
        ⟨0x1FCC, 0x1FCC, 1, 0x1FC3⟩, ⟨0x1FD8, 0x1FD9, 1, 0x1FD0⟩, ⟨0x1FDA, 0x1FDB, 1, 0x1F76⟩,
        ⟨0x1FE8, 0x1FE9, 1, 0x1FE0⟩, ⟨0x1FEA, 0x1FEB, 1, 0x1F7A⟩, ⟨0x1FEC, 0x1FEC, 1, 0x1FE5⟩,
        ⟨0x1FF8, 0x1FF9, 1, 0x1F78⟩, ⟨0x1FFA, 0x1FFB, 1, 0x1F7C⟩, ⟨0x1FFC, 0x1FFC, 1, 0x1FF3⟩] },
    -- Letterlike Symbols
    { first := 0x2100
      last := 0x214F
      runs := [⟨0x2126, 0x2126, 1, 0x03C9⟩, ⟨0x212A, 0x212A, 1, 0x006B⟩,
        ⟨0x212B, 0x212B, 1, 0x00E5⟩, ⟨0x2132, 0x2132, 1, 0x214E⟩] },
    -- Number Forms
    { first := 0x2150
      last := 0x218F
      runs := [⟨0x2160, 0x216F, 1, 0x2170⟩, ⟨0x2183, 0x2183, 1, 0x2184⟩] },
    -- Enclosed Alphanumerics
    { first := 0x2460
      last := 0x24FF
      runs := [⟨0x24B6, 0x24CF, 1, 0x24D0⟩] },
    -- Glagolitic
    { first := 0x2C00
      last := 0x2C5F
      runs := [⟨0x2C00, 0x2C2F, 1, 0x2C30⟩] },
    -- Latin Extended-C
    { first := 0x2C60
      last := 0x2C7F
      runs := [⟨0x2C60, 0x2C60, 1, 0x2C61⟩, ⟨0x2C62, 0x2C62, 1, 0x026B⟩,
        ⟨0x2C63, 0x2C63, 1, 0x1D7D⟩, ⟨0x2C64, 0x2C64, 1, 0x027D⟩, ⟨0x2C67, 0x2C6B, 2, 0x2C68⟩,
        ⟨0x2C6D, 0x2C6D, 1, 0x0251⟩, ⟨0x2C6E, 0x2C6E, 1, 0x0271⟩, ⟨0x2C6F, 0x2C6F, 1, 0x0250⟩,
        ⟨0x2C70, 0x2C70, 1, 0x0252⟩, ⟨0x2C72, 0x2C72, 1, 0x2C73⟩, ⟨0x2C75, 0x2C75, 1, 0x2C76⟩,
        ⟨0x2C7E, 0x2C7F, 1, 0x023F⟩] },
    -- Coptic
    { first := 0x2C80
      last := 0x2CFF
      runs := [⟨0x2C80, 0x2CE2, 2, 0x2C81⟩, ⟨0x2CEB, 0x2CED, 2, 0x2CEC⟩,
        ⟨0x2CF2, 0x2CF2, 1, 0x2CF3⟩] },
    -- Cyrillic Extended-B
    { first := 0xA640
      last := 0xA69F
      runs := [⟨0xA640, 0xA66C, 2, 0xA641⟩, ⟨0xA680, 0xA69A, 2, 0xA681⟩] },
    -- Latin Extended-D
    { first := 0xA720
      last := 0xA7FF
      runs := [⟨0xA722, 0xA72E, 2, 0xA723⟩, ⟨0xA732, 0xA76E, 2, 0xA733⟩,
        ⟨0xA779, 0xA77B, 2, 0xA77A⟩, ⟨0xA77D, 0xA77D, 1, 0x1D79⟩, ⟨0xA77E, 0xA786, 2, 0xA77F⟩,
        ⟨0xA78B, 0xA78B, 1, 0xA78C⟩, ⟨0xA78D, 0xA78D, 1, 0x0265⟩, ⟨0xA790, 0xA792, 2, 0xA791⟩,
        ⟨0xA796, 0xA7A8, 2, 0xA797⟩, ⟨0xA7AA, 0xA7AA, 1, 0x0266⟩, ⟨0xA7AB, 0xA7AB, 1, 0x025C⟩,
        ⟨0xA7AC, 0xA7AC, 1, 0x0261⟩, ⟨0xA7AD, 0xA7AD, 1, 0x026C⟩, ⟨0xA7AE, 0xA7AE, 1, 0x026A⟩,
        ⟨0xA7B0, 0xA7B0, 1, 0x029E⟩, ⟨0xA7B1, 0xA7B1, 1, 0x0287⟩, ⟨0xA7B2, 0xA7B2, 1, 0x029D⟩,
        ⟨0xA7B3, 0xA7B3, 1, 0xAB53⟩, ⟨0xA7B4, 0xA7C2, 2, 0xA7B5⟩, ⟨0xA7C4, 0xA7C4, 1, 0xA794⟩,
        ⟨0xA7C5, 0xA7C5, 1, 0x0282⟩, ⟨0xA7C6, 0xA7C6, 1, 0x1D8E⟩, ⟨0xA7C7, 0xA7C9, 2, 0xA7C8⟩,
        ⟨0xA7CB, 0xA7CB, 1, 0x0264⟩, ⟨0xA7CC, 0xA7DA, 2, 0xA7CD⟩, ⟨0xA7DC, 0xA7DC, 1, 0x019B⟩,
        ⟨0xA7F5, 0xA7F5, 1, 0xA7F6⟩] },
    -- Halfwidth and Fullwidth Forms
    { first := 0xFF00
      last := 0xFFEF
      runs := [⟨0xFF21, 0xFF3A, 1, 0xFF41⟩] },
    -- Deseret
    { first := 0x10400
      last := 0x1044F
      runs := [⟨0x10400, 0x10427, 1, 0x10428⟩] },
    -- Osage
    { first := 0x104B0
      last := 0x104FF
      runs := [⟨0x104B0, 0x104D3, 1, 0x104D8⟩] },
    -- Vithkuqi
    { first := 0x10570
      last := 0x105BF
      runs := [⟨0x10570, 0x1057A, 1, 0x10597⟩, ⟨0x1057C, 0x1058A, 1, 0x105A3⟩,
        ⟨0x1058C, 0x10592, 1, 0x105B3⟩, ⟨0x10594, 0x10595, 1, 0x105BB⟩] },
    -- Old Hungarian
    { first := 0x10C80
      last := 0x10CFF
      runs := [⟨0x10C80, 0x10CB2, 1, 0x10CC0⟩] },
    -- Garay
    { first := 0x10D40
      last := 0x10D8F
      runs := [⟨0x10D50, 0x10D65, 1, 0x10D70⟩] },
    -- Warang Citi
    { first := 0x118A0
      last := 0x118FF
      runs := [⟨0x118A0, 0x118BF, 1, 0x118C0⟩] },
    -- Medefaidrin
    { first := 0x16E40
      last := 0x16E9F
      runs := [⟨0x16E40, 0x16E5F, 1, 0x16E60⟩] },
    -- Beria Erfe
    { first := 0x16EA0
      last := 0x16EDF
      runs := [⟨0x16EA0, 0x16EB8, 1, 0x16EBB⟩] },
    -- Adlam
    { first := 0x1E900
      last := 0x1E95F
      runs := [⟨0x1E900, 0x1E921, 1, 0x1E922⟩] }
  ]

/-!
## Characters and texts

The case mappings on characters. A character can become several (`ß` becomes `SS`), so both return
a text. Neither depends on what stands around a character, and so a text is mapped character by
character.
-/

/-- The characters that a table maps `c` to. -/
def CaseTable.mapChar (t : CaseTable) (c : Char) : Text :=
  (t.map c.toNat).map Char.ofNat

def upper (c : Char) : Text :=
  upperTable.mapChar c

def lower (c : Char) : Text :=
  lowerTable.mapChar c

def upperText (t : Text) : Text :=
  t.flatMap upper

def lowerText (t : Text) : Text :=
  t.flatMap lower

@[simp] theorem upperText_nil : upperText [] = [] := rfl

@[simp] theorem upperText_cons (c : Char) (t : Text) : upperText (c :: t) = upper c ++ upperText t := by
  simp [upperText]

@[simp] theorem upperText_append (s t : Text) : upperText (s ++ t) = upperText s ++ upperText t := by
  simp [upperText]

@[simp] theorem lowerText_nil : lowerText [] = [] := rfl

@[simp] theorem lowerText_cons (c : Char) (t : Text) : lowerText (c :: t) = lower c ++ lowerText t := by
  simp [lowerText]

@[simp] theorem lowerText_append (s t : Text) : lowerText (s ++ t) = lowerText s ++ lowerText t := by
  simp [lowerText]

example : upperText ['s', 't', 'r', 'a', 'ß', 'e'] = ['S', 'T', 'R', 'A', 'S', 'S', 'E'] := by decide +kernel

example : lowerText ['Σ', 'İ'] = ['σ', 'i', '\u0307'] := by decide +kernel

end AnyCase.Unicode
