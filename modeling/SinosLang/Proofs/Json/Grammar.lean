import SinosLang.Proofs.Json.Numbers
import SinosLang.Proofs.Json.Strings

/-!
# The grammar of JSON

The texts of the data interchange format, each with the document that it denotes. White space may
stand around every part, the items of an array and the members of an object stand between brackets
with commas between them, and a name has a string and a colon in front of its value. What stands
inside brackets is a value of the same kind again, so the grammar is one layer above itself.

Main statement: `isValue_iff`, a text is a value exactly if it is a layer of brackets around values.
-/

set_option autoImplicit false

namespace SinosLang.Json

/-- The characters between the parts of a text. -/
def isSpace (c : Char) : Bool :=
  [' ', '\t', '\n', '\r'].contains c

/-- White space. -/
def IsSpace (text : Text) : Prop :=
  ∀ c ∈ text, isSpace c = true

section Lists

variable {α : Type} (element : Text → α → Prop)

/-- One element or more, with commas between them. -/
inductive Separated : Text → List α → Prop
  | single {text : Text} {value : α} : element text value → Separated text [value]
  | cons {first before after rest : Text} {value : α} {values : List α} : element first value →
    IsSpace before → IsSpace after → Separated rest values →
    Separated (first ++ before ++ ',' :: (after ++ rest)) (value :: values)

/-- Any number of elements between two brackets. -/
inductive Enclosed (opening closing : Char) : Text → List α → Prop
  | empty {space : Text} : IsSpace space → Enclosed opening closing (opening :: (space ++ [closing])) []
  | filled {before inner after : Text} {values : List α} : IsSpace before → IsSpace after →
    Separated element inner values →
    Enclosed opening closing (opening :: (before ++ inner ++ after ++ [closing])) values

end Lists

/-- A name with its value. -/
inductive Member (value : Text → Json → Prop) : Text → Text × Json → Prop
  | mk {body key before after text : Text} {document : Json} : StringBody body key →
    IsSpace before → IsSpace after → value text document →
    Member value ('"' :: (body ++ '"' :: (before ++ ':' :: (after ++ text)))) (key, document)

/-- One layer of the grammar above what may stand inside brackets. -/
inductive Layer (inner : Text → Json → Prop) : Text → Json → Prop
  | null : Layer inner "null".toList null
  | true : Layer inner "true".toList (boolean Bool.true)
  | false : Layer inner "false".toList (boolean Bool.false)
  | number {text : Text} {document : Json} : Number text document → Layer inner text document
  | string {body content : Text} : StringBody body content →
    Layer inner ('"' :: (body ++ ['"'])) (string content)
  | array {text : Text} {items : List Json} : Enclosed inner '[' ']' text items →
    Layer inner text (array items)
  | object {text : Text} {members : List (Text × Json)} :
    Enclosed (Member inner) '\x7b' '\x7d' text members → Layer inner text (object members)

/-- The values with brackets nested less than so deep. -/
def ValueWithin : Nat → Text → Json → Prop
  | 0 => fun _ _ => False
  | depth + 1 => Layer (ValueWithin depth)

/-- The texts that are values. -/
def IsValue (text : Text) (document : Json) : Prop :=
  ∃ depth, ValueWithin depth text document

/-- A text is a JSON text that denotes a document: a value with white space around it. -/
def Denotes (text : Text) (document : Json) : Prop :=
  ∃ before inner after, text = before ++ inner ++ after ∧ IsSpace before ∧ IsSpace after ∧
    IsValue inner document

/-! ## Layers -/

section Layers

variable {α : Type} {text : Text} {values : List α} {document : Json} {bound : Nat}

/-- What elements within a length imply, separated elements within the length imply. -/
theorem Separated.imp {element element' : Text → α → Prop}
    (implies : ∀ part value, part.length ≤ bound → element part value → element' part value)
    (separated : Separated element text values) (short : text.length ≤ bound) :
    Separated element' text values := by
  induction separated with
  | single isElement => exact .single (implies _ _ short isElement)
  | cons isElement isSpace isSpace' _ ih =>
    simp only [List.length_append, List.length_cons] at short
    exact .cons (implies _ _ (by omega) isElement) isSpace isSpace' (ih (by omega))

/-- What elements within a length imply, elements in brackets imply. -/
theorem Enclosed.imp {element element' : Text → α → Prop} {opening closing : Char}
    (implies : ∀ part value, part.length ≤ bound → element part value → element' part value)
    (enclosed : Enclosed element opening closing text values) (short : text.length ≤ bound + 1) :
    Enclosed element' opening closing text values := by
  cases enclosed with
  | empty space => exact .empty space
  | filled before after separated =>
    simp only [List.length_append, List.length_cons] at short
    exact .filled before after (separated.imp implies (by omega))

/-- What shorter texts imply inside brackets, a layer implies. -/
theorem Layer.imp {inner inner' : Text → Json → Prop}
    (implies : ∀ part value, part.length ≤ bound → inner part value → inner' part value)
    (layer : Layer inner text document) (short : text.length ≤ bound + 1) :
    Layer inner' text document := by
  cases layer with
  | null => exact .null
  | true => exact .true
  | false => exact .false
  | number isNumber => exact .number isNumber
  | string written => exact .string written
  | array enclosed => exact .array (enclosed.imp implies short)
  | object enclosed =>
    refine .object (enclosed.imp ?_ short)
    rintro part value short ⟨isKey, isSpace, isSpace', isValue⟩
    simp only [List.length_append, List.length_cons] at short
    exact .mk isKey isSpace isSpace' (implies _ _ (by omega) isValue)

/-- A number is not empty. -/
theorem Number.ne_nil (isNumber : Number text document) : text ≠ [] := by
  have signed_ne (negative : Bool) {whole : Text} (filled : whole ≠ []) :
      Binary64.signed negative whole ≠ [] := by
    cases negative with
    | true => exact List.cons_ne_nil _ _
    | false => exact filled
  cases isNumber with
  | integer negative isWhole => exact signed_ne negative isWhole.1.1
  | float negative isWhole _ _ _ =>
    exact signed_ne negative (List.append_ne_nil_of_left_ne_nil isWhole.1.1 _)

/-- A value is not empty. -/
theorem Layer.ne_nil {inner : Text → Json → Prop} (layer : Layer inner text document) :
    text ≠ [] := by
  cases layer with
  | null | true | false => exact List.cons_ne_nil _ _
  | number isNumber => exact isNumber.ne_nil
  | string _ => exact List.cons_ne_nil _ _
  | array enclosed | object enclosed => cases enclosed <;> exact List.cons_ne_nil _ _

/-- Brackets are nested less deep than a value is long. -/
theorem valueWithin_of_length {depth : Nat} (value : ValueWithin depth text document)
    (short : text.length ≤ bound) : ValueWithin bound text document := by
  induction depth generalizing text document bound with
  | zero => exact absurd value id
  | succ depth ih =>
    have filled := List.length_pos_iff.mpr (Layer.ne_nil value)
    obtain ⟨bound, rfl⟩ := Nat.exists_eq_add_one_of_ne_zero (by omega : bound ≠ 0)
    exact Layer.imp (fun part document short isValue => ih isValue short) value short

/-- A text is a value exactly if it is a layer of brackets around values. -/
theorem isValue_iff : IsValue text document ↔ Layer IsValue text document := by
  constructor
  · rintro ⟨depth, value⟩
    cases depth with
    | zero => exact absurd value id
    | succ depth =>
      exact Layer.imp (fun part document _ isValue => ⟨depth, isValue⟩) value (Nat.le_succ _)
  · intro layer
    refine ⟨text.length + 1, Layer.imp (fun part document short isValue => ?_) layer (Nat.le_succ _)⟩
    obtain ⟨depth, value⟩ := isValue
    exact valueWithin_of_length value short

end Layers

end SinosLang.Json
