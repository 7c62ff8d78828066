import AnyCase.Text.Basic

/-!
# Offsets as places in a text

A byte offset that is found, or at which a text is cut, stands for the text before it. The search for a text
finds the place of its first occurrence (`offset?_eq_some_iff`), and none only if it does not occur
(`offset?_eq_none_iff`).
-/

namespace AnyCase.Text

open Utf8

/-- `needle` occurs in `t` right behind `before`, and nowhere earlier. -/
structure FirstAt (needle t before : Text) : Prop where
  occurs : before ++ needle <+: t
  length_le : ∀ before', before' ++ needle <+: t → before.length ≤ before'.length

theorem firstAt_iff_eq_nil {needle t before : Text} (hneedle : needle <+: t) :
    FirstAt needle t before ↔ before = [] := by
  constructor
  · intro hfirst
    exact List.eq_nil_of_length_eq_zero (Nat.le_zero.mp (hfirst.length_le [] hneedle))
  · rintro rfl
    exact ⟨hneedle, fun _ _ => Nat.zero_le _⟩

theorem firstAt_cons_iff {needle t before : Text} {c : Char} (hneedle : ¬ needle <+: c :: t) :
    FirstAt needle (c :: t) before ↔ ∃ tail, before = c :: tail ∧ FirstAt needle t tail := by
  constructor
  · rintro ⟨hoccurs, hlength⟩
    cases before with
    | nil => exact absurd hoccurs hneedle
    | cons d tail =>
      rw [List.cons_append, List.cons_prefix_cons] at hoccurs
      obtain ⟨rfl, hoccurs⟩ := hoccurs
      refine ⟨tail, rfl, hoccurs, fun before' hbefore' => ?_⟩
      have := hlength (d :: before') (List.cons_prefix_cons.mpr ⟨rfl, hbefore'⟩)
      simpa using this
  · rintro ⟨tail, rfl, hoccurs, hlength⟩
    refine ⟨List.cons_prefix_cons.mpr ⟨rfl, hoccurs⟩, fun before' hbefore' => ?_⟩
    cases before' with
    | nil => exact absurd hbefore' hneedle
    | cons d tail' =>
      rw [List.cons_append, List.cons_prefix_cons] at hbefore'
      exact Nat.succ_le_succ (hlength tail' hbefore'.2)

theorem offset?.go_eq_some_iff {needle t : Text} {pos n : Nat} :
    go needle pos t = some n ↔ ∃ before, FirstAt needle t before ∧ n = pos + size before := by
  induction t generalizing pos with
  | nil =>
    rw [go]
    by_cases hneedle : needle = []
    · subst hneedle
      simp [firstAt_iff_eq_nil List.nil_prefix, eq_comm]
    · rw [if_neg (by simpa using hneedle)]
      refine iff_of_false (by simp) ?_
      rintro ⟨before, hfirst, -⟩
      exact hneedle (List.append_eq_nil_iff.mp (List.prefix_nil.mp hfirst.occurs)).2
  | cons c t ih =>
    rw [go]
    by_cases hneedle : needle <+: c :: t
    · rw [if_pos (List.isPrefixOf_iff_prefix.mpr hneedle)]
      simp [firstAt_iff_eq_nil hneedle, eq_comm]
    · rw [if_neg (fun h => hneedle (List.isPrefixOf_iff_prefix.mp h)), ih]
      simp only [firstAt_cons_iff hneedle]
      constructor
      · rintro ⟨tail, hfirst, rfl⟩
        exact ⟨c :: tail, ⟨tail, rfl, hfirst⟩, by rw [size_cons, Nat.add_assoc]⟩
      · rintro ⟨_, ⟨tail, rfl, hfirst⟩, rfl⟩
        exact ⟨tail, hfirst, by rw [size_cons, Nat.add_assoc]⟩

theorem offset?_eq_some_iff {needle t : Text} {n : Nat} :
    offset? needle t = some n ↔ ∃ before, FirstAt needle t before ∧ n = size before := by
  rw [offset?, offset?.go_eq_some_iff]
  simp only [Nat.zero_add]

theorem offset?.go_eq_none_iff {needle t : Text} {pos : Nat} : go needle pos t = none ↔ ¬ needle <:+: t := by
  induction t generalizing pos with
  | nil => simp [go]
  | cons c t ih =>
    rw [go, List.infix_cons_iff]
    by_cases hneedle : needle <+: c :: t
    · simp [hneedle]
    · rw [if_neg (fun h => hneedle (List.isPrefixOf_iff_prefix.mp h)), ih]
      simp only [hneedle, false_or]

theorem offset?_eq_none_iff {needle t : Text} : offset? needle t = none ↔ ¬ needle <:+: t :=
  offset?.go_eq_none_iff

theorem size_le_of_prefix {a b : Text} (h : a <+: b) : size a ≤ size b := by
  obtain ⟨rest, rfl⟩ := h
  rw [size_append]
  exact Nat.le_add_right (size a) (size rest)

theorem takeBytes?_append (a b : Text) : takeBytes? (size a) (a ++ b) = some a := by
  rw [takeBytes?, splitAtByte?_eq_some_iff.mpr ⟨rfl, rfl⟩]
  rfl

theorem dropBytes?_append (a b : Text) : dropBytes? (size a) (a ++ b) = some b := by
  rw [dropBytes?, splitAtByte?_eq_some_iff.mpr ⟨rfl, rfl⟩]
  rfl

end AnyCase.Text
