import SinosLang.Proofs.Parse.Derivations
import SinosLang.Proofs.Parse.FailFast

/-!
# What the limits change

A parse under limits and a parse without them go the same way until a limit is met, and there the
first one ends. So the limits never change an outcome into anything but a report of too deep a
nesting, and they leave a tree alone exactly if it keeps within them.

Main statement: `parse_of_unlimited`.
-/

set_option autoImplicit false

namespace SinosLang

/-- A report that some limit was met. -/
def TooDeep {α : Type} (outcome : Except Failure α) : Prop :=
  ∃ span, outcome = .error (.diagnostic ⟨.tooDeep, span⟩)

namespace Parse

variable {α β : Type}

/-- Run from the same cursor, two actions end in the same way, unless the first one meets a limit. -/
def Restricts (action action' : Parse α) : Prop :=
  ∀ cursor, TooDeep (action cursor).1 ∨ Broken (action cursor).1 ∨
    Broken (action' cursor).1 ∨ action cursor = action' cursor

/-- An action ends as it does. -/
theorem restricts_refl (action : Parse α) : Restricts action action :=
  fun _ => .inr (.inr (.inr rfl))

/-- Actions in a row end in the same way without limits if each of them does. -/
theorem restricts_bind {action action' : Parse α} {next next' : α → Parse β}
    (head : Restricts action action') (tail : ∀ value, Restricts (next value) (next' value)) :
    Restricts (action >>= next) (action' >>= next') := by
  intro cursor
  rcases head cursor with ⟨span, deep⟩ | broken | broken | same
  · exact .inl ⟨span, bind_error deep⟩
  · exact .inr (.inl broken.bind)
  · exact .inr (.inr (.inl broken.bind))
  · match run : action' cursor with
    | (.error failure, after) =>
      rw [run] at same
      rw [bind_apply_of_error same, bind_apply_of_error run]
      exact .inr (.inr (.inr rfl))
    | (.ok value, after) =>
      rw [run] at same
      rw [bind_apply_of_ok same, bind_apply_of_ok run]
      exact tail value after

/-- Without limits a bracket may always be opened and a node always be built. -/
theorem restricts_congruence (limits : Limits) :
    Congruence limits Limits.unlimited fun _ => Restricts where
  pure value := restricts_refl _
  bind := restricts_bind
  current := restricts_refl _
  pull := restricts_refl _
  report fault span := restricts_refl _
  openBracket bracket := by
    intro cursor
    unfold openBracket
    split
    · exact .inl ⟨_, rfl⟩
    · exact .inr (.inr (.inr rfl))
  closeBracket := restricts_refl _
  cover start stop := restricts_refl _
  build node parts := by
    intro cursor
    simp only [build]
    split
    · exact .inr (.inr (.inr rfl))
    · exact .inl ⟨_, rfl⟩
  budget related := fun cursor => related _ _ cursor
  exhausted := restricts_refl _
  exhausted_left _ := fun _ => .inr (.inl broken_exhausted)
  exhausted_right _ := fun _ => .inr (.inr (.inl broken_exhausted))

end Parse

namespace Source

/-- Limits leave an outcome alone or change it into a report that one of them was met. -/
theorem parseWithin_eq_unlimited_or (source : Source) (limits : Limits) :
    source.parseWithin limits = source.parseWithin Limits.unlimited ∨
      TooDeep (source.parseWithin limits) := by
  unfold parseWithin
  rcases (Parse.restricts_congruence limits).program (Cursor.start source) with
    ⟨span, deep⟩ | broken | broken | same
  · right
    rw [deep]
    exact ⟨span, rfl⟩
  · exact absurd broken (not_broken_parse rfl)
  · exact absurd broken (not_broken_parse rfl)
  · rw [same]
    exact .inl rfl

/-- The limits only ever turn an outcome into a report of too deep a nesting. What is rejected
without them is rejected in the same way or as too deep; a tree that is answered without them is
answered with them exactly if it opens at most forty brackets at once and is at most 256 high, and
is too deep otherwise. -/
theorem parse_of_unlimited (source : Source) :
    (∀ failure, source.parseWithin Limits.unlimited = .error failure →
      source.parse = .error failure ∨
        ∃ span, source.parse = .error (.diagnostic ⟨.tooDeep, span⟩)) ∧
    ∀ tree, source.parseWithin Limits.unlimited = .ok tree →
      (tree.bracketDepth ≤ 40 ∧ tree.height ≤ 256 → source.parse = .ok tree) ∧
      (¬(tree.bracketDepth ≤ 40 ∧ tree.height ≤ 256) →
        ∃ span, source.parse = .error (.diagnostic ⟨.tooDeep, span⟩)) := by
  have either := parseWithin_eq_unlimited_or source Limits.standard
  constructor
  · intro failure rejected
    rw [rejected] at either
    exact either
  · intro tree accepted
    rw [accepted] at either
    obtain ⟨tokens, lexes, derived, covers, _, _⟩ := parseWithin_eq_ok_iff.mp accepted
    constructor
    · rintro ⟨few, low⟩
      exact parse_eq_ok_iff.mpr ⟨tokens, lexes, derived, covers, few, low⟩
    · intro exceeds
      rcases either with same | deep
      · obtain ⟨_, _, _, _, few, low⟩ := parse_eq_ok_iff.mp same
        exact absurd ⟨few, low⟩ exceeds
      · exact deep

set_option maxRecDepth 10000 in
/-- Forty-one parentheses around a name are one too many, and a statement without its semicolon is
rejected in the same way as without limits. -/
theorem parse_of_unlimited_parentheses :
    (∃ span, (ofText [] (List.replicate 41 '(' ++ 'x' :: List.replicate 41 ')' ++ [';'])).parse =
      .error (.diagnostic ⟨.tooDeep, span⟩)) ∧
    ((ofText [] "x".toList).parse = .error (.diagnostic ⟨.expectSemi, ⟨1, 0⟩⟩) ∨
      ∃ span, (ofText [] "x".toList).parse = .error (.diagnostic ⟨.tooDeep, span⟩)) ∧
    (ofText [] "(x);".toList).parse =
      .ok (.module ⟨0, 4⟩ [.exprStmt ⟨0, 4⟩ (.group ⟨0, 3⟩ (.name ⟨1, 1⟩ ['x']))]) := by
  refine ⟨?_, ?_, ?_⟩
  · have deep : ((ofText [] (List.replicate 41 '(' ++ 'x' :: List.replicate 41 ')' ++
        [';'])).parseWithin Limits.unlimited).map Node.bracketDepth = .ok 41 := by cbv
    cases accepted : (ofText [] (List.replicate 41 '(' ++ 'x' :: List.replicate 41 ')' ++
        [';'])).parseWithin Limits.unlimited with
    | error failure =>
      rw [accepted] at deep
      cases deep
    | ok tree =>
      rw [accepted] at deep
      have depth_eq : tree.bracketDepth = 41 := Except.ok.inj deep
      exact ((parse_of_unlimited _).2 tree accepted).2 fun within => by omega
  · exact (parse_of_unlimited (ofText [] "x".toList)).1 _ (by cbv)
  · exact ((parse_of_unlimited (ofText [] "(x);".toList)).2 _ (by cbv)).1 (by decide)

end Source

end SinosLang
