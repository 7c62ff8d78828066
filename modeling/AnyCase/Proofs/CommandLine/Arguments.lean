import AnyCase.Proofs.CommandLine.Batch

/-!
# Arguments taken whole or not at all

The parser that stands in front of the program is given. It is asked to take the first argument, and each one more, as
it is documented to (`Documented`). Then either it ends the program, which prints and opens no file, or the files are
the arguments as they stand, but for two hyphens in the first place, and the run goes over all of them
(`run_whole_or_not_at_all`). The parser of the command is of this kind (`documented_parse`).
-/

namespace AnyCase.CommandLine

/-! ### How arguments are read -/

/-- A flag that the parser answers: a long one, or short ones that stand together behind one hyphen. -/
def Reserved (argument : Bytes) : Prop :=
  argument = Utf8.encode "--help".toList ∨ argument = Utf8.encode "--version".toList ∨
    ∃ letters : Text, letters ≠ [] ∧ (∀ c ∈ letters, c = 'h' ∨ c = 'V') ∧ argument = Utf8.encode ('-' :: letters)

/-- A long flag with a value. -/
def Valued (argument : Bytes) : Prop :=
  ∃ value : Text, argument = Utf8.encode ("--help=".toList ++ value) ∨
    argument = Utf8.encode ("--version=".toList ++ value)

def IsText (argument : Bytes) : Prop :=
  ∃ text, argument = Utf8.encode text

def twoHyphens : Bytes :=
  Utf8.encode "--".toList

/-- The arguments that are files unless the parser ends the program. -/
def named (arguments : List Bytes) : List Path :=
  if arguments.head? = some twoHyphens then arguments.tail else arguments

/-- What the documentation says of the parser. It speaks of texts; a first argument that is none can be taken as a file
or not. -/
structure Documented (parser : Parser) : Prop where
  of_nil : parser [] = .files []
  of_twoHyphens : parser [twoHyphens] = .files []
  of_reserved : ∀ argument, Reserved argument → ∃ answer, ∀ later, parser (argument :: later) = .ended answer [] 0
  of_valued : ∀ argument, Valued argument → ∃ complaint, ∀ later, parser (argument :: later) = .ended [] complaint 2
  /-- Any other text in the first place is a file. -/
  of_other : ∀ argument, IsText argument → argument ≠ [] → argument ≠ twoHyphens → ¬ Reserved argument →
    ¬ Valued argument → parser [argument] = .files [argument]
  of_illFormed : ∀ argument, ¬ IsText argument → parser [argument] = .files [argument] ∨
    ∀ later, ∃ stdout stderr status, parser (argument :: later) = .ended stdout stderr status
  /-- Behind a file, or two hyphens in the first place, everything is a file. -/
  of_later : ∀ arguments files later, parser arguments = .files files → arguments ≠ [] → later ≠ [] →
    parser (arguments ++ [later]) = .files (files ++ [later])
  /-- A file without a name is refused, whatever comes behind it. -/
  of_empty : ∀ arguments files, parser arguments = .files files →
    ∃ complaint, ∀ later, parser (arguments ++ [] :: later) = .ended [] complaint 2

variable {parser : Parser} {argument : Bytes} {arguments later : List Bytes} {files : List Path}

theorem named_cons (argument : Bytes) (later : List Bytes) : named (argument :: later) = named [argument] ++ later := by
  by_cases h : argument = twoHyphens
  · simp [named, h]
  · simp [named, h]

theorem named_singleton_of_ne (h : argument ≠ twoHyphens) : named [argument] = [argument] := by
  simp [named, h]

theorem eq_nil_of_mem_named (h : [] ∈ named [argument]) : argument = [] := by
  by_cases hhyphens : argument = twoHyphens
  · simp [named, hhyphens] at h
  · rw [named_singleton_of_ne hhyphens, List.mem_singleton] at h
    exact h.symm

theorem named_eq_nil_iff : named arguments = [] ↔ arguments = [] ∨ arguments = [twoHyphens] := by
  rcases arguments with _ | ⟨argument, later⟩
  · simp [named]
  · by_cases h : argument = twoHyphens
    · simp [named, h]
    · simp [named, h]

namespace Documented

theorem append_files (hparser : Documented parser) (hfiles : parser arguments = .files files)
    (hne : arguments ≠ []) (hlater : [] ∉ later) : parser (arguments ++ later) = .files (files ++ later) := by
  -- The arguments so far are general: each of those behind them is one file more.
  induction later generalizing arguments files with
  | nil => rw [List.append_nil, List.append_nil, hfiles]
  | cons next later ih =>
    have hnext := hparser.of_later arguments files next hfiles hne fun h => hlater (h ▸ List.mem_cons_self)
    have hall := ih hnext (by simp) fun h => hlater (List.mem_cons_of_mem next h)
    rwa [List.append_assoc, List.append_assoc, List.singleton_append] at hall

/-- The first file without a name is where the list is refused. -/
theorem append_refused (hparser : Documented parser) (hfiles : parser arguments = .files files)
    (hne : arguments ≠ []) (hlater : [] ∈ later) :
    ∃ complaint, parser (arguments ++ later) = .ended [] complaint 2 := by
  obtain ⟨before, after, rfl, hbefore⟩ := List.eq_append_cons_of_mem hlater
  obtain ⟨complaint, hrefused⟩ := hparser.of_empty _ _ (hparser.append_files hfiles hne hbefore)
  refine ⟨complaint, ?_⟩
  rw [← List.append_assoc]
  exact hrefused after

theorem refused_of_nil (hparser : Documented parser) :
    ∃ complaint, ∀ later, parser ([] :: later) = .ended [] complaint 2 :=
  hparser.of_empty [] [] hparser.of_nil

theorem first_of_text (hparser : Documented parser) (htext : IsText argument) (hne : argument ≠ [])
    (hreserved : ¬ Reserved argument) (hvalued : ¬ Valued argument) :
    parser [argument] = .files (named [argument]) := by
  by_cases hhyphens : argument = twoHyphens
  · subst hhyphens
    exact hparser.of_twoHyphens
  · rw [named_singleton_of_ne hhyphens]
    exact hparser.of_other argument htext hne hhyphens hreserved hvalued

/-- The first argument is taken as a file, or dropped, or it ends the program whatever comes behind it. -/
theorem first_cases (hparser : Documented parser) (argument : Bytes) :
    parser [argument] = .files (named [argument]) ∨
      ∀ later, ∃ stdout stderr status, parser (argument :: later) = .ended stdout stderr status := by
  by_cases hne : argument = []
  · subst hne
    obtain ⟨complaint, hrefused⟩ := hparser.refused_of_nil
    exact Or.inr fun later => ⟨[], complaint, 2, hrefused later⟩
  by_cases hreserved : Reserved argument
  · obtain ⟨answer, hanswer⟩ := hparser.of_reserved argument hreserved
    exact Or.inr fun later => ⟨answer, [], 0, hanswer later⟩
  by_cases hvalued : Valued argument
  · obtain ⟨complaint, hrefused⟩ := hparser.of_valued argument hvalued
    exact Or.inr fun later => ⟨[], complaint, 2, hrefused later⟩
  by_cases htext : IsText argument
  · exact Or.inl (hparser.first_of_text htext hne hreserved hvalued)
  · have hhyphens : argument ≠ twoHyphens := fun h => htext ⟨"--".toList, h⟩
    rw [named_singleton_of_ne hhyphens]
    exact hparser.of_illFormed argument htext

theorem cons_files (hparser : Documented parser) (hfirst : parser [argument] = .files (named [argument]))
    (hlater : [] ∉ later) : parser (argument :: later) = .files (named (argument :: later)) := by
  rw [named_cons]
  exact hparser.append_files hfirst (List.cons_ne_nil argument []) hlater

theorem cons_refused (hparser : Documented parser) (hfirst : parser [argument] = .files (named [argument]))
    (hlater : [] ∈ later) : ∃ complaint, parser (argument :: later) = .ended [] complaint 2 :=
  hparser.append_refused hfirst (List.cons_ne_nil argument []) hlater

theorem files_or_ended (hparser : Documented parser) (hne : arguments ≠ []) :
    parser arguments = .files (named arguments) ∨
      ∃ stdout stderr status, parser arguments = .ended stdout stderr status := by
  obtain ⟨argument, later, rfl⟩ := List.exists_cons_of_ne_nil hne
  rcases hparser.first_cases argument with hfirst | hended
  · by_cases hlater : [] ∈ later
    · obtain ⟨complaint, hrefused⟩ := hparser.cons_refused hfirst hlater
      exact Or.inr ⟨[], complaint, 2, hrefused⟩
    · exact Or.inl (hparser.cons_files hfirst hlater)
  · exact Or.inr (hended later)

/-- An argument without a name among the files ends the program, wherever it stands. -/
theorem ended_of_mem_named (hparser : Documented parser) (hempty : [] ∈ named arguments) :
    ∃ stdout stderr status, parser arguments = .ended stdout stderr status := by
  rcases arguments with _ | ⟨argument, later⟩
  · exact absurd hempty List.not_mem_nil
  rcases hparser.first_cases argument with hfirst | hended
  · rw [named_cons, List.mem_append] at hempty
    rcases hempty with hargument | hlater
    · obtain ⟨complaint, hrefused⟩ := hparser.refused_of_nil
      rw [eq_nil_of_mem_named hargument]
      exact ⟨[], complaint, 2, hrefused later⟩
    · obtain ⟨complaint, hrefused⟩ := hparser.cons_refused hfirst hlater
      exact ⟨[], complaint, 2, hrefused⟩
  · exact hended later

theorem refused_of_text (hparser : Documented parser) (htext : IsText argument) (hreserved : ¬ Reserved argument)
    (hempty : [] ∈ named (argument :: later)) : ∃ complaint, parser (argument :: later) = .ended [] complaint 2 := by
  by_cases hne : argument = []
  · obtain ⟨complaint, hrefused⟩ := hparser.refused_of_nil
    subst hne
    exact ⟨complaint, hrefused later⟩
  by_cases hvalued : Valued argument
  · obtain ⟨complaint, hrefused⟩ := hparser.of_valued argument hvalued
    exact ⟨complaint, hrefused later⟩
  rw [named_cons, List.mem_append] at hempty
  have hlater : [] ∈ later := hempty.resolve_left fun h => hne (eq_nil_of_mem_named h)
  exact hparser.cons_refused (hparser.first_of_text htext hne hreserved hvalued) hlater

theorem files_of_text (hparser : Documented parser) (htext : IsText argument) (hreserved : ¬ Reserved argument)
    (hvalued : ¬ Valued argument) (hempty : [] ∉ named (argument :: later)) :
    parser (argument :: later) = .files (named (argument :: later)) := by
  have hne : argument ≠ [] := by
    rintro rfl
    exact hempty List.mem_cons_self
  rw [named_cons, List.mem_append, not_or] at hempty
  exact hparser.cons_files (hparser.first_of_text htext hne hreserved hvalued) hempty.2

end Documented

/-! ### The parser of the command -/

namespace Flag

theorem ofLetter?_eq_some_iff {b : UInt8} {flag : Flag} : ofLetter? b = some flag ↔ b = flag.letter := by
  constructor
  · intro hflag
    have hletter := List.find?_some hflag
    exact (of_decide_eq_true hletter).symm
  · intro hletter
    rw [hletter]
    cases flag <;> rfl

theorem all_letters_iff (letters : Bytes) :
    (letters.all fun l => (ofLetter? l).isSome) = true ↔ ∃ flags : List Flag, letters = flags.map letter := by
  induction letters with
  | nil => exact ⟨fun _ => ⟨[], rfl⟩, fun _ => rfl⟩
  | cons l letters ih =>
    rw [List.all_cons, Bool.and_eq_true, ih, Option.isSome_iff_exists]
    constructor
    · intro h
      obtain ⟨⟨flag, hflag⟩, flags, hflags⟩ := h
      rw [ofLetter?_eq_some_iff.mp hflag, hflags]
      exact ⟨flag :: flags, rfl⟩
    · intro h
      obtain ⟨_ | ⟨flag, flags⟩, hflags⟩ := h
      · cases hflags
      · obtain ⟨hflag, hflags⟩ := List.cons.inj hflags
        exact ⟨⟨flag, ofLetter?_eq_some_iff.mpr hflag⟩, flags, hflags⟩

theorem ascii_of_mem_long (flag : Flag) : ∀ c ∈ flag.long.toList ++ ['='], c.toNat < 0x80 := by
  have hall : (flag.long.toList ++ ['=']).all (·.toNat < 0x80) = true := by cases flag <;> rfl
  simpa only [List.all_eq_true, decide_eq_true_eq] using hall

/-- The character of the flag behind one hyphen. -/
def char : Flag → Char
  | help => 'h'
  | version => 'V'

theorem encode_map_char (flags : List Flag) : Utf8.encode (flags.map char) = flags.map letter := by
  induction flags with
  | nil => rfl
  | cons flag flags ih =>
    rw [List.map_cons, List.map_cons, Utf8.encode_cons, ih]
    cases flag <;> rfl

theorem exists_flags {letters : Text} (hletters : ∀ c ∈ letters, c = 'h' ∨ c = 'V') :
    ∃ flags : List Flag, letters = flags.map char := by
  induction letters with
  | nil => exact ⟨[], rfl⟩
  | cons c letters ih =>
    obtain ⟨flags, rfl⟩ := ih fun d hd => hletters d (List.mem_cons_of_mem c hd)
    rcases hletters c List.mem_cons_self with rfl | rfl
    · exact ⟨help :: flags, rfl⟩
    · exact ⟨version :: flags, rfl⟩

end Flag

/-- Why an argument is not taken as a file, and what it comes to. -/
inductive Flagged : Bytes → Parsed → Prop
  | long (flag : Flag) : Flagged (Utf8.encode flag.long.toList) (.answered flag)
  | valued (flag : Flag) (value : Bytes) :
    Flagged (Utf8.encode (flag.long.toList ++ ['=']) ++ value) (.refused (.unexpectedValue flag value))
  | short (flag : Flag) (flags : List Flag) : Flagged (hyphen :: (flag :: flags).map Flag.letter) (.answered flag)
  | illFormed {argument name : Bytes} (h : illFormedName? argument = some name) :
    Flagged argument (.refused (.unexpectedArgument name))

variable {parsed : Parsed}

theorem Flagged.ended (h : Flagged argument parsed) :
    ∃ stdout stderr status, parsed = .ended stdout stderr status := by
  cases h <;> exact ⟨_, _, _, rfl⟩

theorem shortFlag?_eq_some_iff {flag : Flag} :
    shortFlag? argument = some flag ↔
      ∃ flags : List Flag, argument = hyphen :: (flag :: flags).map Flag.letter := by
  rcases argument with _ | ⟨h, _ | ⟨b, letters⟩⟩
  · simp [shortFlag?]
  · simp [shortFlag?]
  · rw [shortFlag?, Option.ite_none_right_eq_some, Flag.all_letters_iff, Flag.ofLetter?_eq_some_iff]
    simp only [List.map_cons, List.cons.injEq, exists_and_left]
    rw [and_assoc, and_comm (b := b = flag.letter)]

theorem flagged_of_longFlag? (hlong : longFlag? argument = some parsed) : Flagged argument parsed := by
  obtain ⟨flag, -, hflag⟩ := List.exists_of_findSome?_eq_some hlong
  dsimp only at hflag
  split at hflag
  · next heq =>
    obtain rfl := Option.some.inj hflag
    rw [heq]
    exact Flagged.long flag
  · split at hflag
    · next hvalued =>
      obtain ⟨value, rfl⟩ := List.isPrefixOf_iff_prefix.mp hvalued
      obtain rfl := Option.some.inj hflag
      rw [List.drop_left' (by simp)]
      exact Utf8.encode_append flag.long.toList ['='] ▸ Flagged.valued flag value
    · cases hflag

theorem longFlag?_short (flag : Flag) (letters : Bytes) : longFlag? (hyphen :: flag.letter :: letters) = none := by
  cases flag <;> rfl

theorem flagged_of_flag? (hflag : flag? argument = some parsed) : Flagged argument parsed := by
  rw [flag?, Option.or_eq_some_iff, Option.or_eq_some_iff] at hflag
  rcases hflag with (hlong | ⟨-, hshort⟩) | ⟨-, hillFormed⟩
  · exact flagged_of_longFlag? hlong
  · obtain ⟨flag, hflag, rfl⟩ := Option.map_eq_some_iff.mp hshort
    obtain ⟨flags, rfl⟩ := shortFlag?_eq_some_iff.mp hflag
    exact Flagged.short flag flags
  · obtain ⟨name, hname, rfl⟩ := Option.map_eq_some_iff.mp hillFormed
    exact Flagged.illFormed hname

theorem flag?_of_reserved (h : Reserved argument) : ∃ flag, flag? argument = some (.answered flag) := by
  obtain rfl | rfl | ⟨letters, hne, hletters, rfl⟩ := h
  · exact ⟨.help, rfl⟩
  · exact ⟨.version, rfl⟩
  · obtain ⟨_ | ⟨flag, flags⟩, rfl⟩ := Flag.exists_flags hletters
    · exact absurd rfl hne
    · refine ⟨flag, ?_⟩
      have hshort : shortFlag? (hyphen :: (flag :: flags).map Flag.letter) = some flag :=
        shortFlag?_eq_some_iff.mpr ⟨flags, rfl⟩
      have hletters : Utf8.encode ('-' :: (flag :: flags).map Flag.char)
          = hyphen :: (flag :: flags).map Flag.letter := by
        rw [Utf8.encode_cons, Flag.encode_map_char]
        rfl
      rw [hletters, flag?, hshort, List.map_cons, longFlag?_short]
      rfl

theorem flag?_of_valued (h : Valued argument) :
    ∃ flag value, flag? argument = some (.refused (.unexpectedValue flag value)) := by
  obtain ⟨value, rfl | rfl⟩ := h
  · rw [Utf8.encode_append]
    exact ⟨.help, Utf8.encode value, rfl⟩
  · rw [Utf8.encode_append]
    exact ⟨.version, Utf8.encode value, rfl⟩

theorem illFormedName?_encode (text : Text) : illFormedName? (Utf8.encode text) = none := by
  have hname : (Utf8.encode text).takeWhile (· ≠ equals) = Utf8.encode (text.takeWhile (· ≠ '=')) :=
    Utf8.takeWhile_encode (c := '=') (by decide) text
  unfold illFormedName?
  simp only [hname, Utf8.decode?_encode, reduceCtorEq, and_false, if_false]

/-- A text that is not taken as a file is a flag. -/
theorem flag?_of_text (htext : IsText argument) (hreserved : ¬ Reserved argument) (hvalued : ¬ Valued argument) :
    flag? argument = none := by
  rw [Option.eq_none_iff_forall_ne_some]
  intro parsed hflag
  obtain ⟨text, rfl⟩ := htext
  generalize hargument : Utf8.encode text = argument at *
  cases flagged_of_flag? hflag with
  | long flag =>
    cases flag with
    | help => exact hreserved (Or.inl rfl)
    | version => exact hreserved (Or.inr (Or.inl rfl))
  | valued flag value =>
    obtain ⟨rest, -, rfl⟩ := Utf8.exists_of_encode_eq_append flag.ascii_of_mem_long hargument
    rw [← Utf8.encode_append] at hvalued
    cases flag with
    | help => exact hvalued ⟨rest, Or.inl rfl⟩
    | version => exact hvalued ⟨rest, Or.inr rfl⟩
  | short flag flags =>
    apply hreserved
    refine Or.inr (Or.inr ⟨(flag :: flags).map Flag.char, by simp, ?_, ?_⟩)
    · intro c hc
      obtain ⟨flag', -, rfl⟩ := List.mem_map.mp hc
      cases flag' <;> simp [Flag.char]
    · rw [Utf8.encode_cons, Flag.encode_map_char]
      rfl
  | illFormed hname =>
    rw [← hargument, illFormedName?_encode] at hname
    cases hname

theorem flag?_twoHyphens : flag? twoHyphens = none := by
  decide

theorem parse_cons (argument : Bytes) (later : List Bytes) :
    parse (argument :: later) = (flag? argument).getD (.ofFiles (named (argument :: later))) := by
  by_cases hhyphens : argument = twoHyphens
  · subst hhyphens
    rw [flag?_twoHyphens]
    rfl
  · have hne : ¬ argument = endOfFlags := hhyphens
    rw [parse, if_neg hne, named, if_neg (by simpa using hhyphens)]

theorem ofFiles_of_not_mem {paths : List Path} (h : [] ∉ paths) : Parsed.ofFiles paths = .files paths := by
  rw [Parsed.ofFiles, if_neg (by simpa using h)]

theorem ofFiles_of_mem {paths : List Path} (h : [] ∈ paths) : Parsed.ofFiles paths = .refused .missingValue := by
  have hany : paths.any List.isEmpty = true := List.any_eq_true.mpr ⟨[], h, rfl⟩
  rw [Parsed.ofFiles, if_pos hany]

theorem ofFiles_eq_files_iff {paths : List Path} :
    Parsed.ofFiles paths = .files files ↔ [] ∉ paths ∧ paths = files := by
  by_cases h : [] ∈ paths
  · rw [ofFiles_of_mem h]
    exact iff_of_false Parsed.noConfusion fun h' => h'.1 h
  · rw [ofFiles_of_not_mem h, Parsed.files.injEq, and_iff_right h]

/-- Behind arguments that are taken as files there are only files. -/
theorem parse_append (hfiles : parse arguments = .files files) (hne : arguments ≠ []) :
    [] ∉ files ∧ ∀ later, parse (arguments ++ later) = .ofFiles (files ++ later) := by
  obtain ⟨argument, rest, rfl⟩ := List.exists_cons_of_ne_nil hne
  rw [parse_cons] at hfiles
  rcases hflag : flag? argument with _ | parsed
  · rw [hflag, Option.getD_none, ofFiles_eq_files_iff] at hfiles
    obtain ⟨hempty, rfl⟩ := hfiles
    refine ⟨hempty, fun later => ?_⟩
    rw [List.cons_append, parse_cons, hflag, Option.getD_none, named_cons, named_cons argument rest, List.append_assoc]
  · obtain ⟨stdout, stderr, status, rfl⟩ := (flagged_of_flag? hflag).ended
    rw [hflag] at hfiles
    cases hfiles

theorem parse_singleton (hflag : flag? argument = none) (hne : argument ≠ []) (hhyphens : argument ≠ twoHyphens) :
    parse [argument] = .files [argument] := by
  rw [parse_cons, hflag, Option.getD_none, named_singleton_of_ne hhyphens]
  exact ofFiles_of_not_mem (by simpa using hne.symm)

theorem documented_parse : Documented parse where
  of_nil := rfl
  of_twoHyphens := rfl
  of_reserved argument h := by
    obtain ⟨flag, hflag⟩ := flag?_of_reserved h
    refine ⟨Utf8.encode flag.answer, fun later => ?_⟩
    rw [parse_cons, hflag]
    rfl
  of_valued argument h := by
    obtain ⟨flag, value, hflag⟩ := flag?_of_valued h
    refine ⟨Utf8.encode (Misuse.unexpectedValue flag value).message, fun later => ?_⟩
    rw [parse_cons, hflag]
    rfl
  of_other argument htext hne hhyphens hreserved hvalued :=
    parse_singleton (flag?_of_text htext hreserved hvalued) hne hhyphens
  of_illFormed argument h := by
    rcases hflag : flag? argument with _ | parsed
    · refine Or.inl (parse_singleton hflag ?_ ?_)
      · rintro rfl
        exact h ⟨[], rfl⟩
      · rintro rfl
        exact h ⟨"--".toList, rfl⟩
    · refine Or.inr fun later => ?_
      rw [parse_cons, hflag]
      exact (flagged_of_flag? hflag).ended
  of_later arguments files later hfiles hne hlater := by
    obtain ⟨hempty, happend⟩ := parse_append hfiles hne
    rw [happend]
    exact ofFiles_of_not_mem (by simpa using ⟨hempty, hlater⟩)
  of_empty arguments files hfiles := by
    refine ⟨Utf8.encode Misuse.missingValue.message, fun later => ?_⟩
    by_cases hne : arguments = []
    · subst hne
      rfl
    · rw [(parse_append hfiles hne).2, ofFiles_of_mem (by simp)]
      rfl

/-! ### Whole or not at all -/

/-- The first argument is one of these. -/
def First (kind : Bytes → Prop) (arguments : List Bytes) : Prop :=
  ∃ argument later, arguments = argument :: later ∧ kind argument

/-- The program prints this and ends. It opens no file, whatever it runs on, and leaves every tree as it is. -/
structure Answers (parser : Parser) (arguments : List Bytes) (stdout stderr : Bytes) (status : Nat) : Prop where
  program_eq : ∀ (m : Type → Type) [Monad m] (host : Host m), host.program parser arguments = do
    host.print stdout
    host.complain stderr
    return status
  run_eq : ∀ fs, run parser fs arguments = ⟨⟨fs, stdout, stderr⟩, status⟩

theorem answers_of_ended {stdout stderr : Bytes} {status : Nat}
    (hended : parser arguments = .ended stdout stderr status) : Answers parser arguments stdout stderr status where
  program_eq m _ host := by
    rw [Host.program, hended]
    rfl
  run_eq := run_of_ended hended

theorem answers_of_no_files (hfiles : parser arguments = .files []) :
    Answers parser arguments (Utf8.encode usage) [] 1 where
  program_eq m _ host := by
    rw [Host.program, hfiles]
    rfl
  run_eq := run_of_no_files hfiles

theorem usage_eq :
    usage = "usage: g4-casefold file1.g4.in [file2.g4.in ...]\n".toList
      ++ "\tConverts the ANTLRv4 keyword file(s) to be case-insensitive.\n".toList := by
  decide +kernel

/-- A list without files shows the usage, and one that begins with a reserved flag is answered. A flag with a value in
the first place, or an empty name among the files, has the list refused. Whenever the parser ends the program, for one
of these reasons or another, no file is opened. Whenever it does not, the files are the arguments as they stand, without
two hyphens in the first place, and all of them are processed; of the lists that begin with a text, these are all but
those that were named. -/
theorem run_whole_or_not_at_all (hparser : Documented parser) (arguments : List Bytes) :
    (arguments = [] ∨ arguments = [Utf8.encode "--".toList] →
      Answers parser arguments
        (Utf8.encode ("usage: g4-casefold file1.g4.in [file2.g4.in ...]\n".toList
          ++ "\tConverts the ANTLRv4 keyword file(s) to be case-insensitive.\n".toList)) [] 1) ∧
    (First Reserved arguments → ∃ answer, Answers parser arguments answer [] 0) ∧
    (First Valued arguments ∨ First IsText arguments ∧ ¬ First Reserved arguments ∧ [] ∈ named arguments →
      ∃ complaint, Answers parser arguments [] complaint 2) ∧
    ([] ∈ named arguments → ∃ stdout stderr status, Answers parser arguments stdout stderr status) ∧
    (∀ stdout stderr status, parser arguments = .ended stdout stderr status →
      Answers parser arguments stdout stderr status) ∧
    (arguments ≠ [] → arguments ≠ [Utf8.encode "--".toList] →
      (∀ stdout stderr status, parser arguments ≠ .ended stdout stderr status) →
      parser arguments = .files (named arguments) ∧ ∀ fs, run parser fs arguments = processed fs (named arguments)) ∧
    (First IsText arguments → ¬ First Reserved arguments → ¬ First Valued arguments → [] ∉ named arguments →
      ∀ stdout stderr status, parser arguments ≠ .ended stdout stderr status) := by
  refine ⟨?_, ?_, ?_, ?_, fun stdout stderr status => answers_of_ended, ?_, ?_⟩
  · intro hnone
    rw [← usage_eq]
    obtain rfl | rfl := hnone
    · exact answers_of_no_files hparser.of_nil
    · exact answers_of_no_files hparser.of_twoHyphens
  · intro hfirst
    obtain ⟨argument, later, rfl, hreserved⟩ := hfirst
    obtain ⟨answer, hanswer⟩ := hparser.of_reserved argument hreserved
    exact ⟨answer, answers_of_ended (hanswer later)⟩
  · rintro (⟨argument, later, rfl, hvalued⟩ | ⟨⟨argument, later, rfl, htext⟩, hreserved, hempty⟩)
    · obtain ⟨complaint, hrefused⟩ := hparser.of_valued argument hvalued
      exact ⟨complaint, answers_of_ended (hrefused later)⟩
    · have hfirst : ¬ Reserved argument := fun h => hreserved ⟨argument, later, rfl, h⟩
      obtain ⟨complaint, hrefused⟩ := hparser.refused_of_text htext hfirst hempty
      exact ⟨complaint, answers_of_ended hrefused⟩
  · intro hempty
    obtain ⟨stdout, stderr, status, hended⟩ := hparser.ended_of_mem_named hempty
    exact ⟨stdout, stderr, status, answers_of_ended hended⟩
  · intro hne hhyphens hgoes
    rcases hparser.files_or_ended hne with hfiles | ⟨stdout, stderr, status, hended⟩
    · refine ⟨hfiles, run_eq_processed hfiles ?_⟩
      rw [ne_eq, named_eq_nil_iff]
      exact not_or.mpr ⟨hne, hhyphens⟩
    · exact absurd hended (hgoes stdout stderr status)
  · rintro ⟨argument, later, rfl, htext⟩ hreserved hvalued hempty stdout stderr status hended
    have hfiles := hparser.files_of_text htext (fun h => hreserved ⟨argument, later, rfl, h⟩)
      (fun h => hvalued ⟨argument, later, rfl, h⟩) hempty
    exact Parsed.noConfusion (hfiles.symm.trans hended)

/-- Behind two hyphens, a source and then what would be a flag in front of it; and the same with an empty name at the
end. -/
theorem run_of_flag_behind_source :
    let keywords : Path := Utf8.encode "X.g4.in".toList
    let flag : Path := Utf8.encode "--help".toList
    let arguments := [twoHyphens, keywords, flag, twoHyphens]
    let fs : FileSystem := ⟨[([keywords], .file 0)], [(0, .regular (Utf8.encode "'a'\n".toList))], []⟩
    Documented parse ∧ named arguments = [keywords, flag, twoHyphens] ∧
      parse arguments = .files [keywords, flag, twoHyphens] ∧
      run parse fs arguments = processed fs [keywords, flag, twoHyphens] ∧
      ∃ complaint, Answers parse (arguments ++ [[]]) [] complaint 2 := by
  intro keywords flag arguments fs
  have hnamed : named arguments = [keywords, flag, twoHyphens] := by decide
  have hparsed : parse arguments = .files [keywords, flag, twoHyphens] := by decide
  obtain ⟨-, -, -, -, -, hwhole, -⟩ := run_whole_or_not_at_all documented_parse arguments
  obtain ⟨hfiles, hrun⟩ := hwhole (by decide) (by decide) fun _ _ _ h => Parsed.noConfusion (hparsed.symm.trans h)
  obtain ⟨-, -, hrefused, -⟩ := run_whole_or_not_at_all documented_parse (arguments ++ [[]])
  have htext : First IsText (arguments ++ [[]]) := ⟨_, _, rfl, "--".toList, rfl⟩
  have hreserved : ¬ First Reserved (arguments ++ [[]]) := by
    intro h
    obtain ⟨argument, later, heq, hreserved⟩ := h
    obtain ⟨rfl, -⟩ := List.cons.inj heq
    obtain ⟨flag, hflag⟩ := flag?_of_reserved hreserved
    exact Option.some_ne_none _ (hflag.symm.trans flag?_twoHyphens)
  rw [hnamed] at hfiles hrun
  exact ⟨documented_parse, hnamed, hfiles, hrun fs, hrefused (Or.inr ⟨htext, hreserved, by decide⟩)⟩

end AnyCase.CommandLine
