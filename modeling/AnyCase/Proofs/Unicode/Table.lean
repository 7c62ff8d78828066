import AnyCase.Unicode.Case

/-!
# What a case table says of all code points

A code point outside the blocks of a table stands for itself, and so does one that its block does not list. So a
question about all code points is one about the entries of a table (`CaseTable.forall_map`): its expansions,
and its runs, offset by offset. Where it goes on to ask what another table makes of the targets of a run, the
blocks and runs of that table which do not come near them can be left out (`CaseTable.map_near`).
-/

namespace AnyCase.Unicode

/-- How far the code points of a run lie from its first, and so their counterparts from its target. -/
def Run.offsets (r : Run) : List Nat :=
  List.range' 0 ((r.last - r.first) / r.step + 1) r.step

theorem Run.le_of_mem_offsets {r : Run} {k : Nat} (hk : k ∈ r.offsets) : k ≤ r.last - r.first := by
  obtain ⟨i, hi, rfl⟩ := List.mem_range'.mp hk
  rw [Nat.zero_add]
  calc r.step * i ≤ r.step * ((r.last - r.first) / r.step) :=
        Nat.mul_le_mul_left r.step (Nat.le_of_lt_succ hi)
    _ ≤ r.last - r.first := Nat.mul_div_le (r.last - r.first) r.step

theorem Run.exists_offset_of_map? {r : Run} {code target : Nat} (hmap : r.map? code = some target) :
    ∃ k ∈ r.offsets, code = r.first + k ∧ target = r.target + k := by
  rw [Run.map?] at hmap
  split at hmap
  · next hon =>
    simp only [Bool.and_eq_true, decide_eq_true_eq, beq_iff_eq] at hon
    obtain ⟨⟨hfirst, hlast⟩, hstep⟩ := hon
    refine ⟨code - r.first, List.mem_range'.mpr ⟨(code - r.first) / r.step, ?_, ?_⟩, by omega,
      (Option.some.inj hmap).symm⟩
    · exact Nat.lt_succ_of_le (Nat.div_le_div_right (Nat.sub_le_sub_right hlast r.first))
    · rw [Nat.zero_add, Nat.mul_div_cancel' (Nat.dvd_of_mod_eq_zero hstep)]
  · contradiction

theorem Block.map_cases (b : Block) (code : Nat) :
    b.map code = [code] ∨ (code, b.map code) ∈ b.expansions ∨
      ∃ r ∈ b.runs, ∃ k ∈ r.offsets, code = r.first + k ∧ b.map code = [r.target + k] := by
  rw [Block.map]
  cases hlookup : b.expansions.lookup code with
  | some codes =>
    obtain ⟨before, after, hexpansions, -⟩ := List.lookup_eq_some_iff.mp hlookup
    exact .inr (.inl (by simp [hexpansions]))
  | none =>
    cases hrun : b.runs.findSome? (·.map? code) with
    | none => exact .inl rfl
    | some target =>
      obtain ⟨r, hr, hmap⟩ := List.exists_of_findSome?_eq_some hrun
      obtain ⟨k, hk, hcode, rfl⟩ := Run.exists_offset_of_map? hmap
      exact .inr (.inr ⟨r, hr, k, hk, hcode, rfl⟩)

/-- What holds of all entries of a table and of the code points that stand for themselves, holds of all. -/
theorem CaseTable.forall_map {t : CaseTable} {P : Nat → List Nat → Prop}
    (hexpansion : ∀ b ∈ t, ∀ e ∈ b.expansions, P e.1 e.2)
    (hrun : ∀ b ∈ t, ∀ r ∈ b.runs, ∀ k ∈ r.offsets, P (r.first + k) [r.target + k])
    (hself : ∀ code, t.map code = [code] → P code [code]) (code : Nat) : P code (t.map code) := by
  by_cases hmap : t.map code = [code]
  · rw [hmap]
    exact hself code hmap
  · rw [CaseTable.map] at hmap ⊢
    split at hmap
    · next b hfind =>
      have hb : b ∈ t := List.mem_of_find?_eq_some hfind
      rcases b.map_cases code with hstays | hlisted | ⟨r, hr, k, hk, rfl, htarget⟩
      · exact absurd hstays hmap
      · exact hexpansion b hb _ hlisted
      · rw [htarget]
        exact hrun b hb r hr k hk
    · contradiction

/-! ### The part of a table near some code points -/

/-- Whether the code points from `first` to `last` and those from `low` to `high` have one in common. -/
def overlap (low high first last : Nat) : Bool :=
  low.ble last && first.ble high

theorem overlap_of_mem {low high first last code : Nat} (hlow : low ≤ code) (hhigh : code ≤ high)
    (hfirst : first ≤ code) (hlast : code ≤ last) : overlap low high first last = true := by
  rw [overlap, Bool.and_eq_true, Nat.ble_eq, Nat.ble_eq]
  exact ⟨Nat.le_trans hlow hlast, Nat.le_trans hfirst hhigh⟩

/-- The block without the runs that have no code point from `low` to `high`. -/
def Block.near (b : Block) (low high : Nat) : Block :=
  { b with runs := b.runs.filter fun r => overlap low high r.first r.last }

/-- The part of a table that can say something of the code points from `low` to `high`. -/
def CaseTable.near (t : CaseTable) (low high : Nat) : CaseTable :=
  (t.filter fun b => overlap low high b.first b.last).map (·.near low high)

theorem findSome?_filter_of_isSome {α β : Type} {p : α → Bool} {f : α → Option β}
    (hp : ∀ a, (f a).isSome → p a = true) (l : List α) : (l.filter p).findSome? f = l.findSome? f := by
  induction l with
  | nil => rfl
  | cons a l ih =>
    by_cases hpa : p a = true
    · rw [List.filter_cons_of_pos hpa, List.findSome?_cons, List.findSome?_cons, ih]
    · have hnone : f a = none := Option.not_isSome_iff_eq_none.mp fun hsome => hpa (hp a hsome)
      rw [List.filter_cons_of_neg hpa, List.findSome?_cons, hnone, ih]

theorem Block.map_near {low high code : Nat} (hlow : low ≤ code) (hhigh : code ≤ high) (b : Block) :
    (b.near low high).map code = b.map code := by
  have hruns : ∀ r : Run, (r.map? code).isSome → overlap low high r.first r.last = true := by
    intro r hsome
    obtain ⟨target, hmap⟩ := Option.isSome_iff_exists.mp hsome
    rw [Run.map?] at hmap
    split at hmap
    · next hon =>
      simp only [Bool.and_eq_true, decide_eq_true_eq] at hon
      exact overlap_of_mem hlow hhigh hon.1.1 hon.1.2
    · contradiction
  rw [Block.map, Block.map, Block.near, findSome?_filter_of_isSome hruns]

theorem CaseTable.map_near {low high code : Nat} (hlow : low ≤ code) (hhigh : code ≤ high) (t : CaseTable) :
    (t.near low high).map code = t.map code := by
  let holds : Block → Bool := fun b => b.first ≤ code && code ≤ b.last
  have hfind : (t.near low high).find? holds = (t.find? holds).map (·.near low high) := by
    rw [CaseTable.near, List.find?_map, List.find?_filter]
    congr 2
    funext b
    rw [Bool.eq_iff_iff]
    simp only [decide_eq_true_eq, Function.comp_apply, Block.near, holds, Bool.and_eq_true]
    exact ⟨And.right, fun hb => ⟨overlap_of_mem hlow hhigh hb.1 hb.2, hb⟩⟩
  rw [CaseTable.map, CaseTable.map, hfind]
  cases t.find? holds with
  | none => rfl
  | some b => exact Block.map_near hlow hhigh b

/-- The part of a table that can say something of the targets of a run. -/
def CaseTable.atTargets (t : CaseTable) (r : Run) : CaseTable :=
  t.near r.target (r.target + (r.last - r.first))

theorem CaseTable.map_atTargets {r : Run} {k : Nat} (hk : k ∈ r.offsets) (t : CaseTable) :
    (t.atTargets r).map (r.target + k) = t.map (r.target + k) :=
  map_near (Nat.le_add_right r.target k) (Nat.add_le_add_left (Run.le_of_mem_offsets hk) r.target) t

end AnyCase.Unicode
