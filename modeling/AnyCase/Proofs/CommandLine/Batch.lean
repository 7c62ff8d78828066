import AnyCase.CommandLine.Parser
import AnyCase.Proofs.Conversion.Stages

/-!
# A batch as conversions in turn

What a run over files does to the tree is the conversion of its sources one after the other, each in the tree that the
one before it left, whatever became of that one. What it prints is one text for each file, in the order of the files: a
warning for a file that is no source, a report for a conversion that fails (`run_of_files`). The words of these texts
are given here, and the program's are proved to be the same.
-/

namespace AnyCase

namespace Conversion

/-- The tree that is left when sources were converted one after the other, whatever the results. -/
def inTurn (fs : FileSystem) (sources : List Path) : FileSystem :=
  sources.foldl (fun fs source => (convert fs source).1) fs

/-- The sources, each with the result of its conversion in the tree that those before it left. -/
def resultsInTurn (fs : FileSystem) : List Path → List (Path × Except Failure Path)
  | [] => []
  | source :: sources => (source, (convert fs source).2) :: resultsInTurn (convert fs source).1 sources

theorem inTurn_cons (fs : FileSystem) (source : Path) (sources : List Path) :
    inTurn fs (source :: sources) = inTurn (convert fs source).1 sources := rfl

variable {fs : FileSystem} {source : Path} {sources : List Path} {failure : Failure}

/-- What fails in the conversion of a source is never its name, and has a cause. -/
theorem cause_of_failed (hsource : isSource source = true) (hfailed : (convert fs source).2 = .error failure) :
    (∃ cause, failure.cause? = some cause) ∧ ∀ p, failure ≠ .unrecognizedFileType p := by
  have hends := convert_ends fs source
  rcases hconvert : convert fs source with ⟨tree, result⟩
  rw [hconvert] at hends hfailed
  obtain rfl : result = .error failure := hfailed
  cases hends with
  | unrecognized houtput =>
    have hsuffix := (isSource_iff source).mp hsource
    exact absurd hsuffix (output?_eq_none_iff.mp houtput)
  | unopened | uncreated | broken => exact ⟨⟨_, rfl⟩, fun _ h => Failure.noConfusion h⟩

theorem cause_of_mem_resultsInTurn (hsources : ∀ source ∈ sources, isSource source = true)
    (hmem : (source, .error failure) ∈ resultsInTurn fs sources) :
    (∃ cause, failure.cause? = some cause) ∧ ∀ p, failure ≠ .unrecognizedFileType p := by
  induction sources generalizing fs with
  | nil => cases hmem
  | cons first sources ih =>
    rcases List.mem_cons.mp hmem with hfirst | hlater
    · obtain ⟨rfl, hfailed⟩ := Prod.mk.inj hfirst
      exact cause_of_failed (hsources source List.mem_cons_self) hfailed.symm
    · exact ih (fun source h => hsources source (List.mem_cons_of_mem first h)) hlater

end Conversion

namespace CommandLine

open Conversion

variable {parser : Parser} {arguments : List Bytes} {files : List Path}

/-! ### What is to be printed -/

/-- The warning about a file that is no source. -/
def warning (file : Path) : Text :=
  "WARNING:  Unrecognized file-type for ".toList ++ file.display ++ ", skipping.\n".toList

/-- The words for the fault behind a failure. -/
def causeWords : Fault → Text
  | .reported _ words => words
  | .illFormedLine => "stream did not contain valid UTF-8".toList
  | .nothingAccepted => "failed to write whole buffer".toList
  | .zeroInPath => "file name contained an unexpected NUL byte".toList
  | .system .notFound => "No such file or directory (os error 2)".toList
  | .system .notDirectory => "Not a directory (os error 20)".toList
  | .system .isDirectory => "Is a directory (os error 21)".toList
  | .system .noSpace => "No space left on device (os error 28)".toList
  | .system .nameTooLong => "File name too long (os error 36)".toList
  | .system .tooManyLinks => "Too many levels of symbolic links (os error 40)".toList

/-- The words for a failure, with those for the fault behind it. -/
def failureWords : Failure → Text
  | .unrecognizedFileType p => "Unrecognized file-type for ".toList ++ p.display
  | .openSource p f => "Failed to open source file: ".toList ++ p.display ++ ": ".toList ++ causeWords f
  | .createOutput p f => "Failed to create output file: ".toList ++ p.display ++ ": ".toList ++ causeWords f
  | .transform p f => "Failed while rewriting ".toList ++ p.display ++ ": ".toList ++ causeWords f

/-- What is printed about a conversion: nothing when it succeeds. -/
def report (source : Path) : Except Failure Path → Text
  | .ok _ => []
  | .error failure =>
    "error: Failed to convert ".toList ++ source.display ++ ": ".toList ++ failureWords failure ++ ['\n']

/-- What is to be left of a run over files: the tree after the conversion of those that end in the suffix, a warning
for each other one, and a report on each conversion that failed. -/
def processed (fs : FileSystem) (files : List Path) : Exit :=
  let sources := files.filter fun file => (Utf8.encode ".g4.in".toList).isSuffixOf file
  let others := files.filter fun file => !(Utf8.encode ".g4.in".toList).isSuffixOf file
  ⟨⟨inTurn fs sources, Utf8.encode (others.flatMap warning),
    Utf8.encode ((resultsInTurn fs sources).flatMap fun e => report e.1 e.2)⟩, 0⟩

theorem causeWords_eq_message (f : Fault) : causeWords f = f.message := by
  cases f with
  | system e => cases e <;> rfl
  | reported | illFormedLine | nothingAccepted | zeroInPath => rfl

theorem failureWords_eq_chain (failure : Failure) : failureWords failure = failure.chain := by
  cases failure with
  | unrecognizedFileType p => rfl
  | openSource p f | createOutput p f | transform p f => exact congrArg (_ ++ ·) (causeWords_eq_message f)

theorem failed_eq_report (source : Path) (failure : Failure) :
    failed source failure = report source (.error failure) := by
  unfold failed report
  simp only [failureWords_eq_chain]

theorem report_ok (source output : Path) : report source (.ok output) = [] := rfl

theorem skipped_eq_warning (file : Path) : skipped file = warning file := rfl

/-! ### One file, and all of them -/

theorem run_file_of_source {file : Path} (r : Run) (hsource : isSource file = true) :
    (runHost.file file).run r =
      pure ((), ⟨(convert r.fileSystem file).1, r.stdout,
        r.stderr ++ Utf8.encode (report file (convert r.fileSystem file).2)⟩) := by
  rw [Host.file, if_pos hsource, StateT.run_bind, run_convert, pure_bind]
  rcases (convert r.fileSystem file).2 with failure | output
  · simp only [run_complain, failed_eq_report]
  · rw [report_ok, Utf8.encode_nil, List.append_nil]
    rfl

theorem run_file_of_other {file : Path} (r : Run) (hother : isSource file = false) :
    (runHost.file file).run r = pure ((), ⟨r.fileSystem, r.stdout ++ Utf8.encode (warning file), r.stderr⟩) := by
  rw [Host.file, if_neg (by simp [hother]), run_print, skipped_eq_warning]

/-- The three things that a run changes stay in step over the files. -/
theorem run_forM_file (files : List Path) (r : Run) :
    (files.forM runHost.file).run r =
      pure ((), ⟨inTurn r.fileSystem (files.filter isSource),
        r.stdout ++ Utf8.encode ((files.filter (!isSource ·)).flatMap warning),
        r.stderr ++ Utf8.encode
          ((resultsInTurn r.fileSystem (files.filter isSource)).flatMap fun e => report e.1 e.2)⟩) := by
  induction files generalizing r with
  | nil => simp [inTurn, resultsInTurn, Utf8.encode_nil]
  | cons file files ih =>
    rw [List.forM_eq_forM, List.forM_cons, StateT.run_bind]
    cases hsource : isSource file with
    | true =>
      rw [run_file_of_source r hsource, pure_bind, ← List.forM_eq_forM, ih]
      simp [hsource, inTurn_cons, resultsInTurn, Utf8.encode_append]
    | false =>
      rw [run_file_of_other r hsource, pure_bind, ← List.forM_eq_forM, ih]
      simp [hsource, Utf8.encode_append]

theorem isSource_eq_isSuffixOf (p : Path) :
    isSource p = (Utf8.encode ".g4.in".toList).isSuffixOf p := by
  rw [Bool.eq_iff_iff, isSource_iff, List.isSuffixOf_iff_suffix]
  rfl

/-! ### A run -/

theorem run_of_ended {stdout stderr : Bytes} {status : Nat} (hended : parser arguments = .ended stdout stderr status)
    (fs : FileSystem) : run parser fs arguments = ⟨⟨fs, stdout, stderr⟩, status⟩ := by
  rw [run, Host.program, hended]
  rfl

theorem run_of_no_files (hfiles : parser arguments = .files []) (fs : FileSystem) :
    run parser fs arguments = ⟨⟨fs, Utf8.encode usage, []⟩, 1⟩ := by
  rw [run, Host.program, hfiles]
  rfl

theorem processed_eq (fs : FileSystem) (files : List Path) :
    processed fs files =
      ⟨⟨inTurn fs (files.filter isSource), Utf8.encode ((files.filter (!isSource ·)).flatMap warning),
        Utf8.encode ((resultsInTurn fs (files.filter isSource)).flatMap fun e => report e.1 e.2)⟩, 0⟩ := by
  rw [funext isSource_eq_isSuffixOf]
  rfl

theorem run_eq_processed (hfiles : parser arguments = .files files) (hne : files ≠ []) (fs : FileSystem) :
    run parser fs arguments = processed fs files := by
  obtain ⟨file, later, rfl⟩ := List.exists_cons_of_ne_nil hne
  rw [processed_eq, run, Host.program, hfiles]
  simp only [StateT.run_bind, run_forM_file, pure_bind]
  rfl

/-- A run over files converts in turn those whose paths end in the suffix, warns about the others, reports each
conversion that fails with its cause, and succeeds. That the name of a source is wrong is never reported. -/
theorem run_of_files (hfiles : parser arguments = .files files) (hne : files ≠ []) (fs : FileSystem) :
    run parser fs arguments = processed fs files ∧
      ∀ source failure, (source, .error failure) ∈
          resultsInTurn fs (files.filter fun file => (Utf8.encode ".g4.in".toList).isSuffixOf file) →
        (∃ cause, failure.cause? = some cause) ∧ ∀ p, failure ≠ .unrecognizedFileType p := by
  refine ⟨run_eq_processed hfiles hne fs, fun source failure => ?_⟩
  simp only [← isSource_eq_isSuffixOf]
  exact cause_of_mem_resultsInTurn fun source hmem => (List.mem_filter.mp hmem).2

/-- A list behind two hyphens with a source that is missing, a file that is no source, and a source. -/
theorem run_of_missing_skipped_and_converted :
    let missing : Path := Utf8.encode "M.g4.in".toList
    let notes : Path := Utf8.encode "-h".toList
    let keywords : Path := Utf8.encode "X.g4.in".toList
    let fs : FileSystem := ⟨[([keywords], .file 0)], [(0, .regular (Utf8.encode "'a'\n".toList))], []⟩
    let exit := run parse fs [endOfFlags, missing, notes, keywords]
    parse [endOfFlags, missing, notes, keywords] = .files [missing, notes, keywords] ∧
      exit = processed fs [missing, notes, keywords] ∧
      exit.run.fileSystem.item? [Utf8.encode "X.g4".toList] = some (.file (.regular (Utf8.encode "[Aa]\n".toList))) ∧
      exit.run.stdout = Utf8.encode "WARNING:  Unrecognized file-type for -h, skipping.\n".toList ∧
      exit.run.stderr = Utf8.encode
        ("error: Failed to convert M.g4.in: Failed to open source file: M.g4.in: ".toList
          ++ "No such file or directory (os error 2)\n".toList) := by
  intro missing notes keywords fs exit
  have hfiles : parse [endOfFlags, missing, notes, keywords] = .files [missing, notes, keywords] := by
    decide
  have hrun : exit = processed fs [missing, notes, keywords] := (run_of_files hfiles (by decide) fs).1
  refine ⟨hfiles, hrun, ?_⟩
  rw [hrun]
  decide +kernel

end CommandLine

end AnyCase
