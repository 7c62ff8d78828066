import AnyCase.Line.Basic
import AnyCase.Proofs.Unicode.Case
import Mathlib.Data.List.Forall2

/-!
# Expansions, written and read

Bracket expressions without a closing bracket among their members are read as they were written, and so is the
expansion of a keyword without one. With or without one, an expansion tells the upper-case form of its keyword and no
more.
-/

/-!
## Bracket expressions, written and read

Bracket expressions without a closing bracket among their members are read as they were written
(`readAll?_renderAll`). What they accept is one member of each, in their order (`accepts_iff_forall₂`).
-/

namespace AnyCase.Bracket

theorem renderAll_cons (b : Bracket) (bs : List Bracket) :
    renderAll (b :: bs) = '[' :: (b.members ++ ']' :: renderAll bs) := by
  simp [renderAll, render]

theorem renderAll_append (bs bs' : List Bracket) : renderAll (bs ++ bs') = renderAll bs ++ renderAll bs' :=
  List.flatMap_append

theorem readAll?.go_append {members : Text} (hmembers : ']' ∉ members) (read rest : Text) :
    go (some read) (members ++ ']' :: rest) = (go none rest).map (⟨read.reverse ++ members⟩ :: ·) := by
  induction members generalizing read with
  | nil => simp [go]
  | cons c members ih =>
    have hc : c ≠ ']' := fun h => hmembers (h ▸ List.mem_cons_self)
    rw [List.cons_append, go, if_neg hc, ih fun h => hmembers (List.mem_cons_of_mem c h)]
    simp

theorem readAll?.go_renderAll_append {bs : List Bracket} (hbs : ∀ b ∈ bs, ']' ∉ b.members) (rest : Text) :
    go none (renderAll bs ++ rest) = (go none rest).map (bs ++ ·) := by
  induction bs with
  | nil => simp [renderAll]
  | cons b bs ih =>
    rw [renderAll_cons, List.cons_append, List.append_assoc, List.cons_append, go, if_pos rfl,
      go_append (hbs b List.mem_cons_self), ih fun b' hb' => hbs b' (List.mem_cons_of_mem b hb'), Option.map_map]
    rfl

theorem readAll?_renderAll {bs : List Bracket} (hbs : ∀ b ∈ bs, ']' ∉ b.members) :
    readAll? (renderAll bs) = some bs := by
  have hread := readAll?.go_renderAll_append hbs []
  rw [List.append_nil, readAll?.go, Option.map_some, List.append_nil] at hread
  rw [readAll?, hread]

theorem accepts_iff_forall₂ {bs : List Bracket} {t : Text} :
    Accepts bs t ↔ List.Forall₂ (fun b c => c ∈ b.members) bs t := by
  induction bs generalizing t with
  | nil => cases t <;> simp [Accepts]
  | cons b bs ih => cases t <;> simp [Accepts, ih]

theorem length_eq_of_accepts {bs : List Bracket} {t : Text} (h : Accepts bs t) : bs.length = t.length :=
  (accepts_iff_forall₂.mp h).length_eq

end AnyCase.Bracket

/-!
## What an expansion tells of its keyword

The expansion of a keyword without a closing bracket is read back as its brackets (`readAll?_expand`), and that of a
keyword with one cannot be read (`readAll?_expand_of_mem`). With or without one, it tells the upper-case form of the
keyword and no more (`expand_eq_iff`): nothing in it is escaped, but the first member of each expression says which
members follow it. So putting a keyword into another case first changes its expansion only by lone capitals
(`expand_of_other_case`).
-/

namespace AnyCase.Literal

open Unicode

/-! ### Reading an expansion -/

theorem renderAll_eitherCase_cons (c : Char) (t : Text) :
    Bracket.renderAll ((c :: t).map eitherCase) =
      '[' :: c :: (lower c ++ ']' :: Bracket.renderAll (t.map eitherCase)) := by
  rw [List.map_cons, Bracket.renderAll_cons]
  rfl

theorem closeBracket_caseless : Caseless ']' := by
  decide +kernel

theorem mem_eitherCase_iff {c d : Char} (hd : Caseless d) : d ∈ (eitherCase c).members ↔ c = d := by
  rw [eitherCase, List.mem_cons, hd.mem_lower_iff, eq_comm, or_self]

theorem closeBracket_not_mem_members {t : Text} (ht : ']' ∉ t) : ∀ b ∈ t.map eitherCase, ']' ∉ b.members := by
  intro b hb hmem
  obtain ⟨c, hc, rfl⟩ := List.mem_map.mp hb
  exact ht ((mem_eitherCase_iff closeBracket_caseless).mp hmem ▸ hc)

/-- The expansion of a keyword without a closing bracket is read back as its brackets. -/
theorem readAll?_expand {keyword : Text} (hkeyword : ']' ∉ keyword) :
    Bracket.readAll? (expand keyword) = some (brackets keyword) :=
  Bracket.readAll?_renderAll (closeBracket_not_mem_members fun hmem =>
    hkeyword (closeBracket_caseless.mem_upperText_iff.mp hmem))

/-- The bracket of a closing bracket is closed by its first member, and the second stands where the next expression
would begin. -/
theorem readAll?_go_closeBracket (rest : Text) :
    Bracket.readAll?.go none (Bracket.renderAll ((']' :: rest).map eitherCase)) = none := by
  rw [renderAll_eitherCase_cons, closeBracket_caseless.lower_eq, Bracket.readAll?.go, if_pos rfl, Bracket.readAll?.go,
    if_pos rfl, List.singleton_append, Bracket.readAll?.go, if_neg (by decide), Option.map_none]

theorem readAll?_expand_of_mem {keyword : Text} (hkeyword : ']' ∈ keyword) :
    Bracket.readAll? (expand keyword) = none := by
  obtain ⟨before, after, hupper, hbefore⟩ :=
    List.eq_append_cons_of_mem (closeBracket_caseless.mem_upperText_iff.mpr hkeyword)
  rw [Bracket.readAll?, expand, brackets, hupper, List.map_append, Bracket.renderAll_append,
    Bracket.readAll?.go_renderAll_append (closeBracket_not_mem_members hbefore), readAll?_go_closeBracket,
    Option.map_none]

/-- The expansion of a keyword is read as one expression for each character of the upper-case form, with that
character and its lower-case form as members, unless a closing bracket stands in the keyword. With one, wherever it
stands, the expansion cannot be read at all. -/
theorem expansion_readable_iff (keyword : Text) :
    (Bracket.readAll? (expand keyword) = some ((upperText keyword).map fun c => ⟨c :: lower c⟩) ↔
        ']' ∉ keyword) ∧
      (Bracket.readAll? (expand keyword) = none ↔ ']' ∈ keyword) := by
  by_cases hkeyword : ']' ∈ keyword
  · rw [readAll?_expand_of_mem hkeyword]
    exact ⟨iff_of_false (Option.some_ne_none _).symm (not_not_intro hkeyword), iff_of_true rfl hkeyword⟩
  · rw [readAll?_expand hkeyword]
    exact ⟨iff_of_true rfl hkeyword, iff_of_false (Option.some_ne_none _) hkeyword⟩

example : Bracket.readAll? (expand ['[', 'a', ']', '[']) = none := by decide +kernel

/-! ### Caseless characters -/

theorem mem_render_eitherCase_iff {c d : Char} (hd : Caseless d) (hopen : d ≠ '[') (hclose : d ≠ ']') :
    d ∈ (eitherCase c).render ↔ c = d := by
  rw [Bracket.render, List.cons_append, List.mem_cons, List.mem_append, mem_eitherCase_iff hd, List.mem_singleton]
  simp only [hopen, hclose, false_or, or_false]

/-- A caseless character that is no bracket stands in the expansions of the keywords in which it stands. -/
theorem mem_expand_iff {d : Char} (hd : Caseless d) (hopen : d ≠ '[') (hclose : d ≠ ']') {keyword : Text} :
    d ∈ expand keyword ↔ d ∈ keyword := by
  simp only [expand, Bracket.renderAll, brackets, List.mem_flatMap, List.mem_map, exists_exists_and_eq_and,
    mem_render_eitherCase_iff hd hopen hclose, exists_eq_right, hd.mem_upperText_iff]

/-! ### The keyword behind an expansion -/

/-- Once the first member of an expression is known, so is the place where the expression ends. -/
theorem renderAll_eitherCase_injective :
    Function.Injective fun t : Text => Bracket.renderAll (t.map eitherCase) := by
  intro s t heq
  dsimp only at heq
  induction s generalizing t with
  | nil =>
    cases t with
    | nil => rfl
    | cons d t =>
      rw [renderAll_eitherCase_cons] at heq
      exact absurd heq (List.cons_ne_nil _ _).symm
  | cons c s ih =>
    cases t with
    | nil =>
      rw [renderAll_eitherCase_cons] at heq
      exact absurd heq (List.cons_ne_nil _ _)
    | cons d t =>
      rw [renderAll_eitherCase_cons, renderAll_eitherCase_cons] at heq
      -- The same character comes first, so the same members and the same closing bracket follow it.
      obtain ⟨rfl, hrest⟩ := List.cons.inj (List.cons.inj heq).2
      have htail := (List.cons.inj (List.append_cancel_left hrest)).2
      rw [ih htail]

theorem expand_eq_iff {s t : Text} : expand s = expand t ↔ upperText s = upperText t :=
  renderAll_eitherCase_injective.eq_iff

/-- A keyword in upper case has the same expansion. In lower case it has the same expansion unless a lone capital
stands in it. -/
theorem expand_of_other_case (keyword : Text) :
    expand (upperText keyword) = expand keyword ∧
      (expand (lowerText keyword) = expand keyword ↔ ∀ c ∈ keyword, ¬ LoneCapital c) := by
  constructor
  · rw [expand_eq_iff, upperText_upperText]
  · rw [expand_eq_iff, upperText_lowerText_eq_iff]

example : expand ['\u212A'] ≠ expand (lowerText ['\u212A']) := by decide +kernel

end AnyCase.Literal
