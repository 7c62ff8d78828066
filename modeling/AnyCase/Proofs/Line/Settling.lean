import AnyCase.Proofs.Line.Rewrite
import Mathlib.Dynamics.FixedPoints.Basic

/-!
# Rewriting a line again and again

A rewritten line can have a literal in its turn: the one behind the literal that is gone, unless the expansion or the
seam over an empty keyword begins a comment before it. But the quotes of a literal are gone for good, since no case
mapping leads to a quote. So a step of rewriting either takes two quotes away or changes nothing
(`count_quote_rewrite`), and what has been rewritten often enough for its quotes stays as it is (`rewriting_settles`).
-/

namespace AnyCase.Line

open Literal Unicode

variable {line : Text} {s : Span}

theorem quote_caseless : Caseless quote := by
  decide +kernel

theorem quote_not_mem_expand {keyword : Text} (hkeyword : quote ∉ keyword) : quote ∉ expand keyword := by
  rwa [mem_expand_iff quote_caseless (by decide) (by decide)]

theorem count_quote_rewrite_line {p : Parted} (hp : p.IsFirst) :
    (rewrite p.line).count quote + 2 = p.line.count quote := by
  have hbefore : p.before.count quote = 0 := List.count_eq_zero.mpr hp.quote_not_mem_before
  have hbody : p.body.count quote = 0 := List.count_eq_zero.mpr hp.quote_not_mem_body
  have hexpansion : (expand p.body).count quote = 0 :=
    List.count_eq_zero.mpr (quote_not_mem_expand hp.quote_not_mem_body)
  rw [rewrite_line hp, p.line_eq, List.count_append, List.count_append, List.count_append, List.count_cons_self,
    List.count_append, List.count_cons_self, hbefore, hbody, hexpansion]
  omega

/-- Rewriting takes away the two quotes of the literal and no other. -/
theorem count_quote_rewrite (hfind : find? line = some s) : (rewrite line).count quote + 2 = line.count quote := by
  obtain ⟨p, hp, rfl, -⟩ := exists_parted_of_find? hfind
  exact count_quote_rewrite_line hp

theorem rewrite_eq_self_iff : rewrite line = line ↔ find? line = none := by
  constructor
  · intro hstays
    rw [Option.eq_none_iff_forall_ne_some]
    intro s hfind
    have hcount := count_quote_rewrite hfind
    rw [hstays] at hcount
    omega
  · exact rewrite_of_find?_eq_none

/-- After each number of steps the line has settled or has lost two quotes at each of them. -/
theorem settled_or_count (line : Text) (k : Nat) :
    find? (rewrite^[k] line) = none ∨ (rewrite^[k] line).count quote + 2 * k = line.count quote := by
  induction k with
  | zero => exact Or.inr rfl
  | succ k ih =>
    rw [Function.iterate_succ_apply']
    rcases hfind : find? (rewrite^[k] line) with _ | s
    · rw [rewrite_of_find?_eq_none hfind]
      exact Or.inl hfind
    · have hcount := count_quote_rewrite hfind
      rcases ih with hnone | ih
      · rw [hfind] at hnone
        contradiction
      · exact Or.inr (by omega)

theorem find?_iterate_rewrite {k : Nat} (hk : line.count quote ≤ 2 * k + 1) : find? (rewrite^[k] line) = none := by
  rcases settled_or_count line k with hnone | hcount
  · exact hnone
  · apply find?_of_count_lt
    omega

/-- Rewriting takes two quotes off a line with a literal and leaves every other line as it is. So the lines without a
literal are those that it leaves as they are, and a line with `n` quotes is one of them after `k` steps, where
`n ≤ 2 * k + 1`. -/
theorem rewriting_settles (line : Text) :
    (∀ s, find? line = some s → (rewrite line).count quote + 2 = line.count quote) ∧
    (find? line = none → rewrite line = line) ∧
    (rewrite line = line ↔ find? line = none) ∧
    ∀ k, line.count quote ≤ 2 * k + 1 → Function.IsFixedPt rewrite (rewrite^[k] line) := by
  refine ⟨fun s hfind => count_quote_rewrite hfind, rewrite_of_find?_eq_none, rewrite_eq_self_iff, ?_⟩
  intro k hk
  exact rewrite_eq_self_iff.mpr (find?_iterate_rewrite hk)

/-- An empty keyword between slashes: without its quotes the slashes begin a comment, and the literal behind them stays
for good. -/
theorem rewriting_settles_before_comment :
    let line : Text := ['/', '\x27', '\x27', '/', '\x27', 'a', '\x27']
    (find? line = some ⟨1, 2⟩ ∧ (rewrite line).count quote + 2 = line.count quote) ∧
    (find? (rewrite line) = none ∧ rewrite (rewrite line) = rewrite line) ∧
    line.count quote ≤ 2 * 2 + 1 ∧ Function.IsFixedPt rewrite (rewrite^[2] line) := by
  intro line
  obtain ⟨hfound, -, -, hsettled⟩ := rewriting_settles line
  obtain ⟨-, hnone, -, -⟩ := rewriting_settles (rewrite line)
  have hfind : find? line = some ⟨1, 2⟩ := by decide
  have hrewritten : find? (rewrite line) = none := by decide +kernel
  have hcount : line.count quote ≤ 2 * 2 + 1 := by decide
  exact ⟨⟨hfind, hfound ⟨1, 2⟩ hfind⟩, ⟨hrewritten, hnone hrewritten⟩, hcount, hsettled 2 hcount⟩

end AnyCase.Line
