import AnyCase.Proofs.Conversion.Stages
import AnyCase.Proofs.FileSystem.Plain

/-!
# Conversions in trees without links

In a plain tree a source and its output stand beside each other in one directory (`Spot`), whatever the spelling
of the path. A conversion that finds its source changes what is at the place of the output, and nothing else
(`effect_convert`); what it leaves there depends on the source and on the kind of what was there before, so that
a second conversion changes nothing (`outcome_outcome`).
-/

namespace AnyCase.Conversion

open FileSystem

/-! ### Spots -/

/-- A directory, and the name of a source in it without the suffix. -/
structure Spot where
  dir : Location
  stem : Name

namespace Spot

/-- The location of the name that ends like this. -/
def named (s : Spot) (ending : Bytes) : Location :=
  s.dir ++ [s.stem ++ ending]

def source (s : Spot) : Location :=
  s.named sourceEnding

def output (s : Spot) : Location :=
  s.named outputEnding

theorem eq_of_named_eq {s s' : Spot} {ending : Bytes} (h : s.named ending = s'.named ending) : s = s' := by
  obtain ⟨hdir, hname⟩ := List.append_inj' h rfl
  obtain ⟨dir, stem⟩ := s
  obtain rfl : dir = s'.dir := hdir
  obtain rfl : stem = s'.stem := List.append_cancel_right (List.singleton_inj.mp hname)
  rfl

theorem output_ne_of_suffix {dir : Location} {name : Name} (hname : sourceEnding <:+ name) (s : Spot) :
    dir ++ [name] ≠ s.output := by
  intro h
  obtain ⟨-, hnames⟩ := List.append_inj' h rfl
  obtain rfl := List.singleton_inj.mp hnames
  exact not_sourceEnding_suffix s.stem hname

theorem source_ne_output (s s' : Spot) : s.source ≠ s'.output :=
  output_ne_of_suffix (List.suffix_append s.stem sourceEnding) s'

end Spot

/-- The path of a source leads to this spot: its steps before the last name lead to the directory, the last name
is that of the source there, and nothing is too long to be looked up. -/
def Lies (fs : FileSystem) (path : Path) (spot : Spot) : Prop :=
  ∃ front prior, path = front ++ sourceEnding ∧
    (∀ ending ∈ [sourceEnding, outputEnding], (front ++ ending).steps = prior ++ [.name (spot.stem ++ ending)]) ∧
    0 ∉ path ∧ path.length ≤ pathLimit ∧ (spot.stem ++ sourceEnding).length ≤ nameLimit ∧
    fs.descend (beginning fs.current path) prior = some spot.dir

variable {fs fs' : FileSystem} {path output : Path} {spot : Spot}

theorem lies_congr (hcurrent : fs'.current = fs.current)
    (hdirectory : ∀ loc, fs'.get? loc = some .directory ↔ fs.get? loc = some .directory) :
    Lies fs' path spot ↔ Lies fs path spot := by
  simp only [Lies, hcurrent, descend_congr hdirectory]

namespace Lies

theorem lookup_source (hlies : Lies fs path spot) (hplain : Plain fs) (purpose : Purpose) :
    fs.lookup purpose path = .ok (fs.placeAt spot.source) := by
  obtain ⟨front, prior, rfl, hsteps, hzero, hlength, hname, hdescend⟩ := hlies
  have hne : front ++ sourceEnding ≠ [] := by simp [sourceEnding_eq, outputEnding]
  rw [hplain.lookup_eq_placeAt_iff (hsteps sourceEnding List.mem_cons_self)]
  exact ⟨⟨hzero, hlength, hne⟩, spot.dir, hdescend, hname, rfl⟩

theorem lookup_output (hlies : Lies fs path spot) (hplain : Plain fs) (houtput : output? path = some output)
    (purpose : Purpose) : fs.lookup purpose output = .ok (fs.placeAt spot.output) := by
  obtain ⟨front, prior, rfl, hsteps, hzero, hlength, hname, hdescend⟩ := hlies
  obtain ⟨front', hfront, rfl⟩ := output?_eq_some_iff_append.mp houtput
  obtain rfl := List.append_cancel_right hfront
  have hne : front ++ outputEnding ≠ [] := by simp [outputEnding]
  have hbegins : ∀ bytes : Bytes, bytes ++ outputEnding <+: bytes ++ sourceEnding := by
    intro bytes
    rw [sourceEnding_eq, ← List.append_assoc]
    exact List.prefix_append _ _
  rw [sourceEnding_eq, ← List.append_assoc, Path.beginning_append hne] at hdescend
  rw [hplain.lookup_eq_placeAt_iff (hsteps outputEnding (by simp))]
  exact ⟨⟨fun h => hzero ((hbegins front).subset h), Nat.le_trans (hbegins front).length_le hlength, hne⟩,
    spot.dir, hdescend, Nat.le_trans (hbegins spot.stem).length_le hname, rfl⟩

theorem exists_output (hlies : Lies fs path spot) : ∃ output, output? path = some output := by
  obtain ⟨front, -, hpath, -⟩ := hlies
  exact ⟨front ++ outputEnding, output?_eq_some_iff_append.mpr ⟨front, hpath, rfl⟩⟩

end Lies

theorem exists_lies (hplain : Plain fs) (houtput : output? path = some output) {purpose : Purpose} {place : Place}
    (hlookup : fs.lookup purpose path = .ok place) : ∃ spot, Lies fs path spot := by
  obtain ⟨front, rfl, rfl⟩ := output?_eq_some_iff_append.mp houtput
  obtain ⟨prior, stem, hsteps⟩ := Path.exists_steps_append front
  have hendings : ∀ ending ∈ [sourceEnding, outputEnding], 2 < ending.length ∧ Path.separator ∉ ending := by
    decide
  have hnames : ∀ ending ∈ [sourceEnding, outputEnding],
      (front ++ ending).steps = prior ++ [.name (stem ++ ending)] := by
    intro ending hending
    obtain ⟨hlong, hseparator⟩ := hendings ending hending
    have hne : ending ≠ [] := by
      rintro rfl
      cases hlong
    rw [hsteps ending hne hseparator, Path.stepOfName_of_length]
    rw [List.length_append]
    omega
  rw [hplain.lookup_eq_placeAt_iff (hnames sourceEnding List.mem_cons_self)] at hlookup
  obtain ⟨⟨hzero, hlength, -⟩, dir, hdescend, hname, -⟩ := hlookup
  exact ⟨⟨dir, stem⟩, front, prior, rfl, hnames, hzero, hlength, hname, hdescend⟩

/-! ### What a conversion does to the items -/

/-- What reading an item brings. -/
def arrivalsOf : Item → List Stream.Arrival
  | .directory => [.fault (.system .isDirectory)]
  | .file o => o.arrivals
  | .link _ => []

/-- The file object that creating a file leaves where this was. -/
def emptied : Option Item → FileObject
  | some (.file o) => o.truncate
  | _ => .regular []

/-- What is at the place of the output after a conversion, by what was at the places of the source and the
output before. -/
def outcome (source output : Option Item) : Option Item :=
  match source, output with
  | none, _ => output
  | some _, some .directory => some .directory
  | some item, _ =>
    some (.file (BufferedSink.received BufferedSink.usualCapacity (arrivalsOf item) (emptied output)))

theorem truncate_emptied (output : Option Item) : (emptied output).truncate = emptied output := by
  rcases output with _ | _ | o | target
  · rfl
  · rfl
  · exact o.truncate_truncate
  · rfl

theorem outcome_of_ne_directory {item : Item} {o : Option Item} (hne : o ≠ some .directory) :
    outcome (some item) o =
      some (.file (BufferedSink.received BufferedSink.usualCapacity (arrivalsOf item) (emptied o))) := by
  rcases o with _ | _ | o | target
  · rfl
  · exact absurd rfl hne
  · rfl
  · rfl

/-- The kind of a file object survives the conversion, so a second one begins with the same empty file. -/
theorem outcome_outcome (source output : Option Item) :
    outcome source (outcome source output) = outcome source output := by
  rcases source with _ | item
  · rfl
  by_cases hdirectory : output = some .directory
  · rw [hdirectory]
    rfl
  · have hkind := BufferedSink.truncate_received BufferedSink.usualCapacity (arrivalsOf item) (emptied output)
    rw [truncate_emptied] at hkind
    rw [outcome_of_ne_directory hdirectory, outcome_of_ne_directory (by simp), emptied, hkind]

theorem object_of_create {id : Nat} {created : FileSystem} {loc : Location}
    (hlookup : fs.lookup .creating output = .ok (fs.placeAt loc))
    (hcreate : fs.create output = .ok (created, id)) : created.object id = emptied (fs.item? loc) := by
  rcases create_cases hcreate with ⟨hfile, rfl⟩ | ⟨vacancy, hvacant, -, rfl⟩
  · have hentry := get?_of_placeAt_file (Except.ok.inj (hlookup.symm.trans hfile))
    rw [object_setObject_self, item?, hentry]
    rfl
  · have hfree := (get?_of_lookup_vacant hvacant).2
    obtain rfl := eq_of_placeAt_vacant (Except.ok.inj (hlookup.symm.trans hvacant))
    rw [object_setObject_self, item?, hfree]
    rfl

theorem open_cases (hplain : Plain fs) (hlies : Lies fs path spot) :
    (∃ f, fs.openForReading path = .error f) ∧ fs.item? spot.source = none ∨
      ∃ opened item, fs.openForReading path = .ok opened ∧ fs.item? spot.source = some item ∧
        ∀ fs' : FileSystem, (∀ id, fs.get? spot.source = some (.file id) → fs'.object id = fs.object id) →
          fs'.arrivals opened = arrivalsOf item := by
  have hlookup := hlies.lookup_source hplain .reading
  rcases hplain.get?_cases spot.source with hentry | hentry | ⟨id, hentry⟩
  · rw [placeAt_of_none hentry] at hlookup
    refine Or.inl ⟨⟨.system .notFound, ?_⟩, by rw [item?, hentry]; rfl⟩
    rw [openForReading, hlookup]
    rfl
  · rw [placeAt_of_directory hentry] at hlookup
    refine Or.inr ⟨.directory, .directory, ?_, by rw [item?, hentry]; rfl, fun fs' _ => rfl⟩
    rw [openForReading, hlookup]
    rfl
  · rw [placeAt_of_file hentry] at hlookup
    refine Or.inr ⟨.file id, .file (fs.object id), ?_, by rw [item?, hentry]; rfl, fun fs' hobject => ?_⟩
    · rw [openForReading, hlookup]
      rfl
    · rw [arrivals, hobject id hentry]
      rfl

theorem create_cases_of_place {loc : Location} (hplain : Plain fs)
    (hlookup : fs.lookup .creating output = .ok (fs.placeAt loc)) :
    (∃ f, fs.create output = .error f) ∧ fs.item? loc = some .directory ∨
      (∃ created id, fs.create output = .ok (created, id)) ∧ fs.item? loc ≠ some .directory := by
  rcases hplain.get?_cases loc with hentry | hentry | ⟨id, hentry⟩
  · rw [placeAt_of_none hentry] at hlookup
    refine Or.inr ⟨⟨(fs.newFile loc).1, (fs.newFile loc).2, ?_⟩, by simp [item?, hentry]⟩
    rw [create, hlookup]
    rfl
  · rw [placeAt_of_directory hentry] at hlookup
    refine Or.inl ⟨⟨.system .isDirectory, ?_⟩, by rw [item?, hentry]; rfl⟩
    rw [create, hlookup]
    rfl
  · rw [placeAt_of_file hentry] at hlookup
    exact Or.inr ⟨⟨_, _, create_of_lookup hlookup⟩, by simp [item?, hentry]⟩

structure Effect (fs : FileSystem) (spot : Spot) (fs' : FileSystem) : Prop where
  plain : Plain fs'
  current : fs'.current = fs.current
  output : fs'.item? spot.output = outcome (fs.item? spot.source) (fs.item? spot.output)
  other : ∀ loc, loc ≠ spot.output → fs'.item? loc = fs.item? loc

theorem effect_refl (hplain : Plain fs)
    (hsame : outcome (fs.item? spot.source) (fs.item? spot.output) = fs.item? spot.output) : Effect fs spot fs where
  plain := hplain
  current := rfl
  output := hsame.symm
  other _ _ := rfl

/-- The conversion of a source affects the place beside it and nothing else. -/
theorem effect_convert (hplain : Plain fs) (hlies : Lies fs path spot) : Effect fs spot (convert fs path).1 := by
  obtain ⟨output, houtput⟩ := hlies.exists_output
  have hlookup := hlies.lookup_output hplain houtput .creating
  rcases open_cases hplain hlies with ⟨⟨f, hopened⟩, hsource⟩ | ⟨opened, item, hopened, hsource, harrivals⟩
  · have htree : (convert fs path).1 = fs := by simp only [convert_eq, houtput, hopened]
    rw [htree]
    exact effect_refl hplain (by rw [hsource]; rfl)
  rcases create_cases_of_place hplain hlookup with ⟨⟨f, hcreate⟩, hdirectory⟩ | ⟨⟨created, id, hcreate⟩, hfile⟩
  · have htree : (convert fs path).1 = fs := by simp only [convert_eq, houtput, hopened, hcreate]
    rw [htree]
    exact effect_refl hplain (by rw [hsource, hdirectory]; rfl)
  have hconfined := confined_convert houtput hopened hcreate
  obtain ⟨hself, hother⟩ := hconfined.item?_of_plain hplain hlookup
  have hbrings : created.arrivals opened = arrivalsOf item := by
    apply harrivals
    intro sourceId hentry
    apply (confined_create hcreate).object
    rintro rfl
    exact (hconfined.get?_of_plain hplain hlookup).2 spot.source (Spot.source_ne_output spot spot) |>.2 hentry
  have hobject : (convert fs path).1.object id =
      BufferedSink.received BufferedSink.usualCapacity (arrivalsOf item) (emptied (fs.item? spot.output)) := by
    rw [convert_of_created houtput hopened hcreate, rewriteInto, rewriteThrough_tree, object_setObject_self,
      hbrings, object_of_create hlookup hcreate]
  exact {
    plain := hconfined.plain hplain hlookup
    current := hconfined.current
    output := by rw [hself, hobject, hsource, outcome_of_ne_directory hfile]
    other := hother }

/-- A conversion that finds no source leaves everything as it was. -/
theorem convert_of_not_lies (hplain : Plain fs) (hnowhere : ∀ spot, ¬ Lies fs path spot) :
    (convert fs path).1 = fs := by
  rcases convert_tree_cases fs path with htree | ⟨output, opened, created, id, houtput, hopened, -⟩
  · exact htree
  · obtain ⟨place, hlookup⟩ := exists_lookup_of_opened hopened
    obtain ⟨spot, hlies⟩ := exists_lies hplain houtput hlookup
    exact absurd hlies (hnowhere spot)

end AnyCase.Conversion
