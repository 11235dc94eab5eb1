import SinosLang.Proofs.Json.Decoding
import Mathlib.Data.List.Forall2

/-!
# Written documents

A document whose doubles are all finite is written as a JSON text that denotes it: the brackets stand
around the parts, each on a line of its own, and the lines differ in white space only from one without
them. So the document is read back from its text.

Main statements: `denotes_text` and `decode?_text`.
-/

set_option autoImplicit false

namespace SinosLang.Json

/-- The documents directly inside a document. -/
def parts : Json → List Json
  | array items => items
  | object members => members.map Prod.snd
  | _ => []

/-- Whether a document is no double or a finite one. -/
def HasFiniteValue : Json → Prop
  | float value => ∃ negative rank, value = .finite negative rank
  | _ => True

/-- A document in which every double is finite. -/
inductive Finite : Json → Prop
  | mk {document : Json} : document.HasFiniteValue → (∀ part ∈ document.parts, Finite part) →
    Finite document

/-- The items of an array are written one by one. -/
theorem itemsAt_eq (depth : Nat) (items : List Json) :
    itemsAt depth items = items.map (textAt depth) := by
  induction items with
  | nil => rfl
  | cons item items ih => rw [itemsAt, ih, List.map_cons]

/-- The members of an object are written one by one, each with its key in front. -/
theorem membersAt_eq (depth : Nat) (members : List (Text × Json)) :
    membersAt depth members = members.map fun member =>
      Text.json member.1 ++ ':' :: ' ' :: textAt depth member.2 := by
  induction members with
  | nil => rfl
  | cons member members ih => rw [membersAt, ih, List.map_cons]

/-- Nothing is white space. -/
theorem isSpace_nil : IsSpace [] :=
  List.forall_mem_nil _

/-- A line break and the indentation behind it are white space. -/
theorem isSpace_newline (depth : Nat) : IsSpace (newline depth) := by
  refine List.forall_mem_cons.mpr ⟨rfl, fun c isIn => ?_⟩
  rw [List.eq_of_mem_replicate isIn]
  rfl

section Lists

variable {α : Type} {element : Text → α → Prop} {texts : List Text} {values : List α}

/-- The first of several texts stands in front of the separator and the joined others. -/
theorem join_cons (separator first next : Text) (texts : List Text) :
    Text.join separator (first :: next :: texts) =
      first ++ separator ++ Text.join separator (next :: texts) := by
  simp [Text.join, List.intercalate]

/-- Elements that are joined by a comma and a new line are separated. -/
theorem separated_join (depth : Nat) (each : List.Forall₂ element texts values)
    (filled : texts ≠ []) :
    Separated element (Text.join (',' :: newline depth) texts) values := by
  induction each with
  | nil => exact absurd rfl filled
  | @cons first value texts values isElement later ih =>
    cases later with
    | nil =>
      have shape : Text.join (',' :: newline depth) [first] = first := by
        simp [Text.join, List.intercalate]
      rw [shape]
      exact .single isElement
    | @cons next _ texts _ isNext others =>
      have separated := Separated.cons isElement isSpace_nil (isSpace_newline depth)
        (ih (List.cons_ne_nil _ _))
      rw [List.append_nil] at separated
      rwa [join_cons, List.append_assoc, List.cons_append]

/-- Elements are enclosed in brackets, each on a line of its own. -/
theorem enclosed_enclose (opening closing : Char) (depth : Nat)
    (each : List.Forall₂ element texts values) :
    Enclosed element opening closing (enclose opening closing depth texts) values := by
  unfold enclose
  cases each with
  | nil => exact .empty isSpace_nil
  | cons isElement later =>
    have separated := separated_join (depth + 1) (.cons isElement later) (List.cons_ne_nil _ _)
    exact .filled (isSpace_newline (depth + 1)) (isSpace_newline depth) separated

/-- Every value stands beside the text that is written for it. -/
theorem forall₂_map {write : α → Text} (each : ∀ value ∈ values, element (write value) value) :
    List.Forall₂ element (values.map write) values :=
  List.forall₂_map_left_iff.mpr (List.forall₂_same.mpr each)

end Lists

/-- A document is written as a value that denotes it. -/
theorem isValue_textAt {document : Json} (finite : document.Finite) (depth : Nat) :
    IsValue (textAt depth document) document := by
  induction finite generalizing depth with
  | @mk document isFinite _ ih =>
    rw [isValue_iff]
    cases document with
    | null => exact .null
    | boolean value =>
      cases value with
      | true => exact .true
      | false => exact .false
    | integer value => exact .number (number_ofInt value)
    | float value =>
      obtain ⟨negative, rank, rfl⟩ := isFinite
      exact .number (number_finite negative rank)
    | string value => exact .string (stringBody_json value)
    | array items =>
      rw [textAt, itemsAt_eq]
      exact .array (enclosed_enclose '[' ']' depth
        (forall₂_map fun item isItem => ih item isItem (depth + 1)))
    | object members =>
      rw [textAt, membersAt_eq]
      refine .object (enclosed_enclose '\x7b' '\x7d' depth (forall₂_map ?_))
      rintro ⟨key, value⟩ isMember
      have isValue := ih value (List.mem_map_of_mem isMember) (depth + 1)
      have space : IsSpace [' '] := by
        simp [IsSpace, isSpace]
      have shape : Text.json key ++ ':' :: ' ' :: textAt (depth + 1) value =
          '"' :: (key.flatMap Text.jsonChar ++
            '"' :: ([] ++ ':' :: ([' '] ++ textAt (depth + 1) value))) := by
        simp [Text.json]
      dsimp only
      rw [shape]
      exact .mk (stringBody_json key) isSpace_nil space isValue

/-- The text of a document without infinite numbers denotes that document. -/
theorem denotes_text {document : Json} (finite : document.Finite) :
    Denotes document.text document :=
  ⟨[], document.text, [], (List.append_nil _).symm, isSpace_nil, isSpace_nil, isValue_textAt finite 0⟩

/-- A document is read back from its text. -/
theorem decode?_text {document : Json} (finite : document.Finite) :
    decode? document.text = some document :=
  decode?_of_denotes (denotes_text finite)

end SinosLang.Json
