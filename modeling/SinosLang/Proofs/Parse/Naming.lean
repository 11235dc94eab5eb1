import SinosLang.Proofs.Lexing.Lines
import SinosLang.Proofs.Parse.FailFast

/-!
# The name of a source does not matter

The lexer and the parser look at the text of a source and at its size. So every action does the same
from a cursor whose source goes by another name, and a text is parsed in the same way under every
name. Only a diagnostic shows the name, in front of its place.

Main statements: `parse_ofText` and `render_ofText`.
-/

set_option autoImplicit false

namespace SinosLang

/-- The cursor with another name for its source. -/
def Cursor.renamed (name : Text) (cursor : Cursor) : Cursor :=
  { cursor with source := { cursor.source with name := name } }

namespace Parse

variable {name : Text} {α β : Type}

/-- Two actions that do the same under one name and under another, unless one of them breaks off. -/
def Renames (name : Text) (action action' : Parse α) : Prop :=
  ∀ cursor : Cursor, Broken (action cursor).1 ∨ Broken (action' (cursor.renamed name)).1 ∨
    action' (cursor.renamed name) = ((action cursor).1, (action cursor).2.renamed name)

/-- An action that carries a name along does the same under another one. -/
theorem renames_of_eq {action : Parse α} (same : ∀ cursor : Cursor,
      action (cursor.renamed name) = ((action cursor).1, (action cursor).2.renamed name)) :
    Renames name action action :=
  fun cursor => .inr (.inr (same cursor))

/-- Actions in a row do the same under another name if each of them does. -/
theorem renames_bind {action action' : Parse α} {next next' : α → Parse β}
    (head : Renames name action action') (tail : ∀ value, Renames name (next value) (next' value)) :
    Renames name (action >>= next) (action' >>= next') := by
  intro cursor
  rcases head cursor with broken | broken | same
  · exact .inl broken.bind
  · exact .inr (.inl broken.bind)
  · match run : action cursor with
    | (.error failure, after) =>
      rw [run] at same
      rw [bind_apply_of_error run, bind_apply_of_error same]
      exact .inr (.inr rfl)
    | (.ok value, after) =>
      rw [run] at same
      rw [bind_apply_of_ok run, bind_apply_of_ok same]
      exact tail value after

/-- A pull carries the name along. -/
theorem pull_renamed (cursor : Cursor) :
    pull (cursor.renamed name) = ((pull cursor).1, (pull cursor).2.renamed name) := by
  unfold pull
  cases more : cursor.upcoming with
  | nil => simp [Cursor.renamed, more, Cursor.endToken]
  | cons reading later =>
    cases outcome_eq : reading.outcome <;> simp [Cursor.renamed, more, outcome_eq]

/-- A look at the token ahead carries the name along. -/
theorem current_renamed (cursor : Cursor) :
    current (cursor.renamed name) = ((current cursor).1, (current cursor).2.renamed name) := by
  have sees : (cursor.renamed name).lookahead = cursor.lookahead := rfl
  unfold current
  rw [sees]
  split
  · rfl
  · exact pull_renamed cursor

/-- Every rule of the grammar does the same under another name. -/
theorem renames_congruence (name : Text) (limits : Limits) :
    Congruence limits limits fun _ => Renames name where
  pure value := renames_of_eq fun _ => rfl
  bind := renames_bind
  current := renames_of_eq current_renamed
  pull := renames_of_eq pull_renamed
  report fault span := renames_of_eq fun _ => rfl
  openBracket bracket := by
    refine renames_of_eq fun cursor => ?_
    have sees : (cursor.renamed name).nesting = cursor.nesting := rfl
    unfold openBracket
    rw [sees]
    split <;> rfl
  closeBracket := renames_of_eq fun _ => rfl
  cover start stop := renames_of_eq fun _ => rfl
  build node parts := by
    refine renames_of_eq fun cursor => ?_
    simp only [build]
    split <;> rfl
  budget related := fun cursor => related _ _ cursor
  exhausted := renames_of_eq fun _ => rfl
  exhausted_left _ := fun _ => .inl broken_exhausted
  exhausted_right _ := fun _ => .inr (.inl broken_exhausted)

end Parse

namespace Source

/-- A text is parsed in the same way under every name. -/
theorem parse_ofText (name other text : Text) :
    (ofText other text).parse = (ofText name text).parse := by
  have start_eq : Cursor.start (ofText other text) =
      (Cursor.start (ofText name text)).renamed other := by
    unfold Cursor.start Cursor.renamed
    rw [Stream.readings_ofText name other text]
    rfl
  unfold parse parseWithin
  rw [start_eq]
  rcases (Parse.renames_congruence other Limits.standard).program (Cursor.start (ofText name text))
    with broken | broken | same
  · exact absurd broken (not_broken_parse rfl)
  · rw [← start_eq] at broken
    exact absurd broken (not_broken_parse rfl)
  · rw [same]

end Source

/-- A diagnostic shows the name of its source and then what only depends on the text. -/
theorem Diagnostic.render_ofText (text : Text) (d : Diagnostic) :
    ∃ rest, ∀ name, d.render (Source.ofText name text) = name ++ rest := by
  refine ⟨d.render (Source.ofText [] text), fun name => ?_⟩
  have place : (Source.ofText name text).lineColumn d.span.index =
      (Source.ofText [] text).lineColumn d.span.index := rfl
  have line (number : Int) : (Source.ofText name text).lineText number =
      (Source.ofText [] text).lineText number := rfl
  have named (name : Text) : (Source.ofText name text).name = name := rfl
  unfold Diagnostic.render
  simp [place, line, named, Text.joinLines, Text.join, List.intercalate]

end SinosLang
