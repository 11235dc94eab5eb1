import SinosLang.Proofs.Node.WellFormed
import SinosLang.Proofs.Node.Writing

/-!
# No carriage returns in source text

Reading a file turns carriage returns into newlines, so a text comes back as it was written exactly
if there are none in it. The source text of a tree that the parser may answer with is such a text:
identifiers, numbers and operators have no carriage return, and a string is written with an escape in
its place.

Main statements: `noReturn_sourceText` and `unifyNewlines_of_noReturn`.
-/

set_option autoImplicit false

namespace SinosLang

namespace Text

variable {text rest : Text}

/-- A text in which no carriage return occurs. -/
def NoReturn (text : Text) : Prop :=
  '\r' ∉ text

/-- A text without a carriage return is read as it was written. -/
theorem unifyNewlines_of_noReturn (noReturn : text.NoReturn) : unifyNewlines text = text := by
  induction text with
  | nil => rfl
  | cons c rest ih =>
    obtain ⟨isOther, behind⟩ := not_or.mp (mt List.mem_cons.mpr noReturn)
    rw [unifyNewlines, ih behind]
    · rintro _ rfl
      exact absurd rfl isOther
    · rintro rfl
      exact absurd rfl isOther

/-- Two texts in a row have no carriage return if neither of them has one. -/
@[simp]
theorem noReturn_append : NoReturn (text ++ rest) ↔ text.NoReturn ∧ rest.NoReturn := by
  simp [NoReturn]

/-- A text has no carriage return if neither its first character is one nor the others have one. -/
@[simp]
theorem noReturn_cons {c : Char} : NoReturn (c :: text) ↔ c ≠ '\r' ∧ text.NoReturn := by
  simp [NoReturn, eq_comm]

/-- The empty text has no carriage return. -/
@[simp]
theorem noReturn_nil : NoReturn [] := by
  simp [NoReturn]

/-- Parts in a row have no carriage return if none of them has one. -/
@[simp]
theorem noReturn_flatMap {α : Type} {parts : List α} {write : α → Text} :
    NoReturn (parts.flatMap write) ↔ ∀ part ∈ parts, (write part).NoReturn := by
  simp [NoReturn]

/-- A word has no carriage return. -/
theorem IsWord.noReturn (word : text.IsWord) : text.NoReturn :=
  word.not_mem (by decide +kernel)

/-- A numeral has no carriage return. -/
theorem IsNumeral.noReturn (numeral : text.IsNumeral) : text.NoReturn := by
  intro isIn
  have digit := numeral.2 _ isIn
  cases digit

/-- A string literal is written with an escape for a carriage return. -/
theorem noReturn_literal (content : Text) : (literal content).NoReturn := by
  have escaped (c : Char) : (literalChar c).NoReturn := by
    unfold literalChar
    cases found : escapeLetter? c with
    | some letter =>
      obtain ⟨entry, isEntry, rfl⟩ := Option.map_eq_some_iff.mp found
      have letters : ∀ entry ∈ escapes, entry.1 ≠ '\r' := by decide
      simpa using letters _ (List.mem_of_find?_eq_some isEntry)
    | none =>
      have isOther : c ≠ '\r' := by
        rintro rfl
        exact absurd found (by decide)
      simpa using isOther
  simpa [literal] using fun c _ => escaped c

/-- A symbol has no carriage return. -/
theorem noReturn_of_ofSymbol? {kind : TokenKind} (known : TokenKind.ofSymbol? text = some kind) :
    text.NoReturn := by
  unfold NoReturn
  exact Lexeme.not_mem_of_ofSymbol? (by decide) known

end Text

namespace Node

/-- The source text of a tree of proper nodes has no carriage return. -/
theorem noReturn_sourceText (node : Node) (proper : ∀ part ∈ node.preorder, part.Proper) :
    node.sourceText.NoReturn := by
  induction node using induction_on_children with
  | step node ih =>
    have isProper := proper node (mem_preorder_self node)
    have below (child : Node) (isChild : child ∈ node.children) : child.sourceText.NoReturn :=
      ih child isChild fun part isPart =>
        proper part (mem_preorder_iff.mpr (.inr ⟨child, isChild, isPart⟩))
    cases node with
    | module span stmts =>
      cases stmts with
      | nil => simp
      | cons first stmts =>
        have each (stmt : Node) (isIn : stmt ∈ stmts) : stmt.sourceText.NoReturn :=
          below stmt (List.mem_cons_of_mem _ isIn)
        simpa using ⟨below first List.mem_cons_self, each⟩
    | letStmt span binding type? value =>
      obtain ⟨isIdentifier, typeIsIdentifier, _⟩ := isProper
      have valueNoReturn := below value (by simp [children])
      have typePart : Text.NoReturn (type?.elim [] fun type => ": ".toList ++ type) := by
        cases type? with
        | none => simp
        | some type => simpa using (typeIsIdentifier type rfl).1.noReturn
      have filled : type? ≠ some [] := fun empty => Text.not_isWord_nil (typeIsIdentifier [] empty).1
      rw [sourceText_letStmt span binding filled]
      simpa [isIdentifier.1.noReturn, valueNoReturn] using typePart
    | exprStmt span expr => simpa using below expr (by simp [children])
    | block span stmts last? =>
      have closing : Text.NoReturn
          (if (stmts ++ last?.toList).isEmpty then ['\x7d'] else [' ', '\x7d']) := by
        split <;> simp
      have parts : ∀ part ∈ stmts ++ last?.toList, Text.NoReturn (' ' :: part.sourceText) := by
        intro part isPart
        simpa using below part isPart
      rw [sourceText_block, Text.noReturn_append, Text.noReturn_cons, Text.noReturn_flatMap]
      exact ⟨⟨by decide, parts⟩, closing⟩
    | binary span op left right =>
      obtain ⟨⟨kind, _, known⟩, _, _⟩ := isProper
      have opNoReturn := Text.noReturn_of_ofSymbol? known
      have leftNoReturn := below left (by simp [children])
      have rightNoReturn := below right (by simp [children])
      simp [opNoReturn, leftNoReturn, rightNoReturn]
    | unary span op operand =>
      obtain ⟨⟨kind, _, known⟩, _⟩ := isProper
      simpa using ⟨Text.noReturn_of_ofSymbol? known, below operand (by simp [children])⟩
    | group span expr => simpa using below expr (by simp [children])
    | name span value => simpa using Text.IsWord.noReturn isProper.1
    | integer span value =>
      obtain ⟨digits, same⟩ := Int.eq_ofNat_of_zero_le isProper.1
      rw [sourceText_integer, same]
      exact (Text.isNumeral_ofNat digits).noReturn
    | float span value =>
      obtain ⟨rank, rfl⟩ := isProper
      obtain ⟨whole, fraction, shape, digits, decimals, _⟩ := Binary64.exists_literal rank
      rw [sourceText_float, shape]
      simp [digits.noReturn, decimals.noReturn]
    | boolean span value => cases value <;> simp [truthText]
    | string span value => simpa using Text.noReturn_literal value

end Node

end SinosLang
