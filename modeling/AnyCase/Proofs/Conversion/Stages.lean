import AnyCase.Proofs.Conversion.Name
import AnyCase.Proofs.FileSystem.Create
import AnyCase.Proofs.Stream.Buffered

/-!
# The stages of a conversion

A conversion goes through four stages, and the first that fails decides its result. Before the last stage nothing is
touched; in the last one the changes are confined to the output (`convert_stages`). Made again, it does the same and
leaves the same (`convert_convert`).
-/
namespace AnyCase.Conversion

open FileSystem

/-- How a conversion can end: the tree that it leaves and its result, by the stage that it came to. -/
inductive Ends (fs : FileSystem) (source : Path) : FileSystem → Except Failure Path → Prop where
  | unrecognized (houtput : output? source = none) :
    Ends fs source fs (.error (.unrecognizedFileType source))
  | unopened {output : Path} {f : Fault} (houtput : output? source = some output)
    (hopened : fs.openForReading source = .error f) : Ends fs source fs (.error (.openSource source f))
  | uncreated {output : Path} {opened : Opened} {f : Fault} (houtput : output? source = some output)
    (hopened : fs.openForReading source = .ok opened) (hcreate : fs.create output = .error f) :
    Ends fs source fs (.error (.createOutput output f))
  | broken {output : Path} {opened : Opened} {created written : FileSystem} {id : Nat} {f : Fault}
    (houtput : output? source = some output) (hopened : fs.openForReading source = .ok opened)
    (hcreate : fs.create output = .ok (created, id))
    (hwritten : rewriteInto created opened id = (written, some f)) :
    Ends fs source written (.error (.transform source f))
  | completed {output : Path} {opened : Opened} {created written : FileSystem} {id : Nat}
    (houtput : output? source = some output) (hopened : fs.openForReading source = .ok opened)
    (hcreate : fs.create output = .ok (created, id))
    (hwritten : rewriteInto created opened id = (written, none)) : Ends fs source written (.ok output)

variable {fs tree created : FileSystem} {source output p : Path} {result : Except Failure Path}
  {opened : Opened} {id : Nat} {f : Fault}

theorem convert_ends (fs : FileSystem) (source : Path) :
    Ends fs source (convert fs source).1 (convert fs source).2 := by
  rcases houtput : output? source with _ | output
  · simp only [convert_eq, houtput]
    exact .unrecognized houtput
  rcases hopened : fs.openForReading source with f | opened
  · simp only [convert_eq, houtput, hopened]
    exact .unopened houtput hopened
  rcases hcreate : fs.create output with f | ⟨created, id⟩
  · simp only [convert_eq, houtput, hopened, hcreate]
    exact .uncreated houtput hopened hcreate
  rcases hwritten : rewriteInto created opened id with ⟨written, _ | f⟩
  · simp only [convert_eq, houtput, hopened, hcreate, hwritten]
    exact .completed houtput hopened hcreate hwritten
  · simp only [convert_eq, houtput, hopened, hcreate, hwritten]
    exact .broken houtput hopened hcreate hwritten

/-! ### The result -/

namespace Ends

theorem unrecognizedFileType_iff (h : Ends fs source tree result) :
    result = .error (.unrecognizedFileType p) ↔ p = source ∧ ¬ Utf8.encode sourceSuffix <:+ source := by
  rw [← output?_eq_none_iff]
  cases h with
  | unrecognized houtput => simp [houtput, eq_comm]
  | unopened houtput | uncreated houtput | broken houtput | completed houtput => simp [houtput]

theorem openSource_iff (h : Ends fs source tree result) :
    result = .error (.openSource p f) ↔
      p = source ∧ Utf8.encode sourceSuffix <:+ source ∧ fs.openForReading source = .error f := by
  cases h with
  | unrecognized houtput => simp [output?_eq_none_iff.mp houtput]
  | unopened houtput hopened =>
    have hsuffix := (output?_eq_some_iff.mp houtput).1
    simp [hsuffix, hopened, eq_comm]
  | uncreated _ hopened | broken _ hopened | completed _ hopened => simp [hopened]

theorem createOutput_iff (h : Ends fs source tree result) :
    result = .error (.createOutput p f) ↔
      output? source = some p ∧ (∃ opened, fs.openForReading source = .ok opened) ∧ fs.create p = .error f := by
  cases h with
  | unrecognized houtput => simp [houtput]
  | unopened _ hopened => simp [hopened]
  | uncreated houtput hopened hcreate =>
    constructor
    · intro hresult
      obtain ⟨rfl, rfl⟩ := Failure.createOutput.inj (Except.error.inj hresult)
      exact ⟨houtput, ⟨_, hopened⟩, hcreate⟩
    · rintro ⟨houtput', -, hcreate'⟩
      obtain rfl := Option.some.inj (houtput.symm.trans houtput')
      obtain rfl := Except.error.inj (hcreate.symm.trans hcreate')
      rfl
  | broken houtput _ hcreate | completed houtput _ hcreate =>
    constructor
    · intro hresult
      cases hresult
    · rintro ⟨houtput', -, hcreate'⟩
      obtain rfl := Option.some.inj (houtput.symm.trans houtput')
      cases hcreate.symm.trans hcreate'

theorem path_of_transform (h : Ends fs source tree (.error (.transform p f))) : p = source := by
  cases h
  rfl

theorem output?_of_ok (h : Ends fs source tree (.ok p)) : output? source = some p := by
  cases h
  assumption

/-- A failure before the last stage leaves everything as it was. -/
theorem tree_of_error {failure : Failure} (h : Ends fs source tree (.error failure))
    (hfailure : ∀ p f, failure ≠ .transform p f) : tree = fs := by
  cases h with
  | unrecognized | unopened | uncreated => rfl
  | broken => exact absurd rfl (hfailure source _)

end Ends

/-- A conversion leaves everything as it was, unless it comes to the last stage. -/
theorem convert_tree_cases (fs : FileSystem) (source : Path) :
    (convert fs source).1 = fs ∨
      ∃ output opened created id, output? source = some output ∧ fs.openForReading source = .ok opened ∧
        fs.create output = .ok (created, id) := by
  have hends := convert_ends fs source
  rcases hconvert : convert fs source with ⟨tree, result⟩
  rw [hconvert] at hends
  cases hends with
  | unrecognized | unopened | uncreated => exact Or.inl rfl
  | broken houtput hopened hcreate | completed houtput hopened hcreate =>
    exact Or.inr ⟨_, _, _, _, houtput, hopened, hcreate⟩

/-! ### The last stage -/

theorem rewriteThrough_tree (capacity : Nat) (fs : FileSystem) (arrivals : List Stream.Arrival) (id : Nat) :
    (rewriteThrough capacity fs arrivals id).1 =
      fs.setObject id (BufferedSink.received capacity arrivals (fs.object id)) := by
  rw [rewriteThrough, BufferedSink.received]
  split <;> rename_i hrun <;> rw [hrun] <;> rfl

theorem convert_of_created (houtput : output? source = some output)
    (hopened : fs.openForReading source = .ok opened) (hcreate : fs.create output = .ok (created, id)) :
    convert fs source =
      ((rewriteInto created opened id).1,
        match (rewriteInto created opened id).2 with
        | none => .ok output
        | some f => .error (.transform source f)) := by
  rw [convert_eq, houtput]
  simp only [hopened, hcreate]
  rcases rewriteInto created opened id with ⟨written, _ | f⟩ <;> rfl

theorem result_of_created (houtput : output? source = some output)
    (hopened : fs.openForReading source = .ok opened) (hcreate : fs.create output = .ok (created, id)) :
    (convert fs source).2 = .ok output ∨ ∃ f, (convert fs source).2 = .error (.transform source f) := by
  rw [convert_of_created houtput hopened hcreate]
  rcases (rewriteInto created opened id).2 with _ | f
  · exact Or.inl rfl
  · exact Or.inr ⟨f, rfl⟩

/-- Once the output is created, the changes are confined to it, whatever comes of the lines. -/
theorem confined_convert (houtput : output? source = some output)
    (hopened : fs.openForReading source = .ok opened) (hcreate : fs.create output = .ok (created, id)) :
    Confined fs output (convert fs source).1 id := by
  rw [convert_of_created houtput hopened hcreate, rewriteInto, rewriteThrough_tree]
  exact (confined_create hcreate).setObject _

/-- The result names the first stage that fails, with the path that the stage concerns. A conversion that fails
before the output is created changes nothing; otherwise it changes the output and nothing else. -/
theorem convert_stages (fs : FileSystem) (source : Path) :
    (∀ p, (convert fs source).2 = .error (.unrecognizedFileType p) ↔
      p = source ∧ ¬ Utf8.encode sourceSuffix <:+ source) ∧
    (∀ p f, (convert fs source).2 = .error (.openSource p f) ↔
      p = source ∧ Utf8.encode sourceSuffix <:+ source ∧ fs.openForReading source = .error f) ∧
    (∀ p f, (convert fs source).2 = .error (.createOutput p f) ↔
      output? source = some p ∧ (∃ opened, fs.openForReading source = .ok opened) ∧ fs.create p = .error f) ∧
    (∀ p f, (convert fs source).2 = .error (.transform p f) → p = source) ∧
    (∀ p, (convert fs source).2 = .ok p → output? source = some p) ∧
    (∀ failure, (convert fs source).2 = .error failure → (∀ p f, failure ≠ .transform p f) →
      (convert fs source).1 = fs) ∧
    (∀ output opened created id, output? source = some output → fs.openForReading source = .ok opened →
      fs.create output = .ok (created, id) →
      ((convert fs source).2 = .ok output ∨ ∃ f, (convert fs source).2 = .error (.transform source f)) ∧
        Confined fs output (convert fs source).1 id) := by
  have hends := convert_ends fs source
  refine ⟨fun p => hends.unrecognizedFileType_iff, fun p f => hends.openSource_iff,
    fun p f => hends.createOutput_iff, ?_, ?_, ?_, ?_⟩
  · intro p f hresult
    rw [hresult] at hends
    exact hends.path_of_transform
  · intro p hresult
    rw [hresult] at hends
    exact hends.output?_of_ok
  · intro failure hresult hfailure
    rw [hresult] at hends
    exact hends.tree_of_error hfailure
  · intro output opened created id houtput hopened hcreate
    exact ⟨result_of_created houtput hopened hcreate, confined_convert houtput hopened hcreate⟩

/-!
## Converting a source again

A conversion that comes to its last stage leaves a tree in which both paths still lead where they led: the source to
what was opened, and the output to the file that was created, though that may be new, or be the source itself. So
creating the output again makes the tree that it made the first time, down to its tables, and from there everything
goes the same way (`convert_convert`).
-/

/-- The lines leave the output behind as what is empty when it is created again. -/
theorem truncate_received_of_create (hcreate : fs.create output = .ok (created, id)) (capacity : Nat)
    (arrivals : List Stream.Arrival) :
    (BufferedSink.received capacity arrivals (created.object id)).truncate = created.object id := by
  rw [BufferedSink.truncate_received, truncate_object_of_create hcreate]

/-- After a conversion, whatever came of its lines, the output is created as it was before them. -/
theorem create_convert (houtput : output? source = some output) (hopened : fs.openForReading source = .ok opened)
    (hcreate : fs.create output = .ok (created, id)) : (convert fs source).1.create output = .ok (created, id) := by
  rw [convert_of_created houtput hopened hcreate, rewriteInto, rewriteThrough_tree]
  apply create_setObject hcreate
  exact truncate_received_of_create hcreate _ _

/-- A conversion that is made again changes nothing: the tree stays as the first one left it, and the result is the
same, be it the path of the output or a failure with its path and its cause. -/
theorem convert_convert (fs : FileSystem) (source : Path) :
    convert (convert fs source).1 source = convert fs source := by
  rcases convert_tree_cases fs source with htree | ⟨output, opened, created, id, houtput, hopened, hcreate⟩
  · rw [htree]
  · have hconfined := confined_convert houtput hopened hcreate
    have hopenedAgain := hconfined.openForReading hopened
    have hcreateAgain := create_convert houtput hopened hcreate
    rw [convert_of_created houtput hopenedAgain hcreateAgain, convert_of_created houtput hopened hcreate]

end AnyCase.Conversion
