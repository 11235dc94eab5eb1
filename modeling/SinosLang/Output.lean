import SinosLang.Node.Listing
import SinosLang.Node.SourceText
import SinosLang.Node.Document

/-!
# Output formats

A parsed program is shown in one of three formats: as a tree listing, as a JSON document, or as
source text. Formats are asked for by name.
-/

set_option autoImplicit false

namespace SinosLang

/-- The formats in which a program is shown. -/
inductive OutputFormat where
  | tree
  | json
  | source
deriving DecidableEq, Repr

namespace OutputFormat

/-- All formats. -/
def all : List OutputFormat :=
  [tree, json, source]

/-- The name of a format. -/
def name : OutputFormat → Text
  | tree => "tree".toList
  | json => "json".toList
  | source => "source".toList

/-- The names of all formats. -/
def names : List Text :=
  all.map name

/-- The format with a name. -/
def ofName? (text : Text) : Option OutputFormat :=
  all.find? fun format => format.name == text

/-- Every format is found by its own name. -/
@[simp]
theorem ofName?_name (format : OutputFormat) : ofName? format.name = some format := by
  cases format <;> rfl

/-- No two formats have one name. -/
theorem name_injective {format other : OutputFormat} (same : format.name = other.name) :
    format = other := by
  have found := ofName?_name format
  rw [same, ofName?_name] at found
  exact (Option.some.inj found).symm

/-- The name of every format is among the known names. -/
theorem name_mem_names (format : OutputFormat) : format.name ∈ names := by
  cases format <;> decide

/-- A name is that of a format, or no format has it. -/
theorem ofName?_cases (name : Text) :
    (∃ format : OutputFormat, name = format.name ∧ ofName? name = some format) ∨
      name ∉ names ∧ ofName? name = none := by
  cases found : ofName? name with
  | some format =>
    have same := List.find?_some found
    exact .inl ⟨format, (eq_of_beq same).symm, rfl⟩
  | none =>
    refine .inr ⟨fun isName => ?_, rfl⟩
    obtain ⟨format, isFormat, same⟩ := List.mem_map.mp isName
    exact List.find?_eq_none.mp found format isFormat (beq_iff_eq.mpr same)

/-- A tree in a format. -/
def render (format : OutputFormat) (node : Node) : Text :=
  match format with
  | tree => node.listing
  | json => node.document.text
  | source => node.sourceText

/-- What is said about a name that is no format. -/
def unknownMessage (name : Text) : Text :=
  "Unknown output format: ".toList ++ name

end OutputFormat

end SinosLang
