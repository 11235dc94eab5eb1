import SinosLang.Source
import SinosLang.Proofs.Decimal.Literal

/-!
# Texts told apart

A text that is put together from parts determines the parts if each part ends in front of a character
that it does not have, or if each can be taken off the front again. The listings are put together in
these two ways.

Main statements: `append_cons_inj`, `flatMap_inj` and `Span.brackets_append_inj`.
-/

set_option autoImplicit false

namespace SinosLang

namespace Text

variable {front other rest rest' : Text}

/-- Parts that end in front of a character that they do not have are told apart. -/
theorem append_cons_inj {stop : Char} (absent : stop ∉ front) (absent' : stop ∉ other)
    (same : front ++ stop :: rest = other ++ stop :: rest') : front = other ∧ rest = rest' := by
  induction front generalizing other with
  | nil =>
    cases other with
    | nil => exact ⟨rfl, (List.cons.inj same).2⟩
    | cons c other =>
      obtain ⟨rfl, _⟩ := List.cons.inj same
      exact absurd List.mem_cons_self absent'
  | cons c front ih =>
    cases other with
    | nil =>
      obtain ⟨rfl, _⟩ := List.cons.inj same
      exact absurd List.mem_cons_self absent
    | cons d other =>
      obtain ⟨rfl, behind⟩ := List.cons.inj same
      obtain ⟨rfl, rest_eq⟩ := ih (mt (List.mem_cons_of_mem _) absent)
        (mt (List.mem_cons_of_mem _) absent') behind
      exact ⟨rfl, rest_eq⟩

/-- Characters are told apart in a text that is made of their codes, if a reader takes the code of the
first one off the front. -/
theorem flatMap_inj {code : Char → Text} {read? : Text → Option (Char × Text)}
    (undone : ∀ c rest, read? (code c ++ rest) = some (c, rest)) (ends : read? [] = none)
    (same : front.flatMap code = other.flatMap code) : front = other := by
  induction front generalizing other with
  | nil =>
    cases other with
    | nil => rfl
    | cons c other =>
      have read := undone c (other.flatMap code)
      rw [← List.flatMap_cons, ← same, List.flatMap_nil, ends] at read
      cases read
  | cons c front ih =>
    have read := undone c (front.flatMap code)
    rw [← List.flatMap_cons, same] at read
    cases other with
    | nil =>
      rw [List.flatMap_nil, ends] at read
      cases read
    | cons d other =>
      rw [List.flatMap_cons, undone] at read
      obtain ⟨rfl, behind⟩ := Prod.mk.inj (Option.some.inj read)
      rw [ih behind.symm]

/-- Only digits stand in a number. -/
theorem not_mem_ofNat {c : Char} (notDigit : isDigit c = false) (n : Nat) : c ∉ ofNat n := by
  intro isIn
  have digit := (isNumeral_ofNat n).2 c isIn
  rw [notDigit] at digit
  cases digit

/-- Numbers with the same digits are the same. -/
theorem ofNat_inj {n m : Nat} (same : ofNat n = ofNat m) : n = m := by
  rw [← toNat_ofNat n, same, toNat_ofNat]

end Text

namespace Span

variable {span other : Span} {rest rest' : Text}

/-- A span in brackets is told apart from what stands behind it. -/
theorem brackets_append_inj (same : span.brackets ++ rest = other.brackets ++ rest') :
    span = other ∧ rest = rest' := by
  obtain ⟨index, length⟩ := span
  obtain ⟨index', length'⟩ := other
  simp only [brackets, List.cons_append, List.append_assoc, List.cons.injEq, true_and,
    List.nil_append] at same
  obtain ⟨index_eq, behind⟩ :=
    Text.append_cons_inj (Text.not_mem_ofNat rfl _) (Text.not_mem_ofNat rfl _) same
  obtain ⟨length_eq, rest_eq⟩ :=
    Text.append_cons_inj (Text.not_mem_ofNat rfl _) (Text.not_mem_ofNat rfl _) behind
  rw [Text.ofNat_inj index_eq, Text.ofNat_inj length_eq]
  exact ⟨rfl, rest_eq⟩

/-- A span in brackets has no line break in it. -/
theorem newline_not_mem_brackets (span : Span) : '\n' ∉ span.brackets := by
  simp [brackets, Text.not_mem_ofNat (c := '\n') rfl]

end Span

end SinosLang
