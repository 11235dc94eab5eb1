import SinosLang.Text.Quoted

/-!
# Sources and spans

A source is a named text. A span is a range of its characters, given by the offset of the first one
and their number. Spans are made by `Source.span?`, which refuses a range that does not fit, so
every span that the library hands out lies inside its source.
-/

set_option autoImplicit false

namespace SinosLang

/-- A range of characters: the offset of the first one and their number. -/
structure Span where
  index : Nat
  length : Nat
deriving DecidableEq, Repr

namespace Span

/-- The offset just after the last character. -/
def stop (span : Span) : Nat :=
  span.index + span.length

/-- Whether one span lies inside another. -/
def contains (outer inner : Span) : Bool :=
  outer.index ≤ inner.index && inner.stop ≤ outer.stop

/-- The two numbers of a span between angle brackets. -/
def brackets (span : Span) : Text :=
  '<' :: Text.ofNat span.index ++ ',' :: Text.ofNat span.length ++ ['>']

/-- A span as a listing shows it. -/
def listed (span : Span) : Text :=
  "Span".toList ++ span.brackets

end Span

/-- A range that does not fit into a source with so many characters. -/
structure RangeError where
  index : Int
  length : Int
  size : Nat
deriving DecidableEq, Repr

/-- The words for a range that does not fit. -/
def RangeError.message (error : RangeError) : Text :=
  "Span<".toList ++ Text.ofInt error.index ++ ',' :: Text.ofInt error.length ++
    "> out of range for source of length ".toList ++ Text.ofNat error.size

/-- A named text. Its number of characters is kept with it. -/
structure Source where
  name : Text
  text : Text
  size : Nat := text.length
  size_eq : size = text.length := by rfl
deriving DecidableEq

namespace Source

/-- The source with a name and a text. -/
def ofText (name text : Text) : Source where
  name := name
  text := text

/-- The span with an offset and a length, if it lies inside the source. -/
def span? (source : Source) (index length : Int) : Except RangeError Span :=
  if index < 0 ∨ length < 0 ∨ source.size < index + length then
    .error ⟨index, length, source.size⟩
  else
    .ok ⟨index.toNat, length.toNat⟩

/-- The span from the start of one span to the end of another. -/
def cover (source : Source) (first last : Span) : Except RangeError Span :=
  source.span? first.index (last.stop - first.index)

/-- The characters that a span covers. -/
def slice (source : Source) (span : Span) : Text :=
  (source.text.drop span.index).take span.length

/-- The offset that a possibly negative index stands for: a negative one counts from the end. -/
def fromEnd (source : Source) (index : Int) : Int :=
  if index < 0 then index + source.size else index

/-- The character at an index; a negative one counts from the end. -/
def get? (source : Source) (index : Int) : Option Char :=
  let place := source.fromEnd index
  if place < 0 then none else source.text[place.toNat]?

/-- The text before an index. A negative index counts from the end, and one that lies outside means
the nearer end. -/
def before (source : Source) (index : Int) : Text :=
  source.text.take (source.fromEnd index).toNat

/-- The line and the column of an index, both counted from one. The line is one more than the number
of newlines before the index, and the column is counted from the last of them. -/
def lineColumn (source : Source) (index : Int) : Nat × Int :=
  let before := source.before index
  let onLine := (before.reverse.takeWhile (· != '\n')).length
  (before.count '\n' + 1, index - (before.length - onLine : Nat) + 1)

/-- The text of a line, counted from one, without its newline; empty if there is no such line. -/
def lineText (source : Source) (line : Int) : Text :=
  if line < 1 then [] else ((Text.lines source.text)[(line - 1).toNat]?).getD []

/-- A source as a listing shows it: its name and its size. -/
def listed (source : Source) : Text :=
  "SourceFile(".toList ++ Text.listed source.name ++ ", <".toList ++ Text.ofNat source.size ++
    " chars>)".toList

/-- A source that is made from a text has that text. -/
@[simp]
theorem ofText_text (name text : Text) : (ofText name text).text = text := rfl

/-- A source that is made from a text is as long as the text. -/
@[simp]
theorem ofText_size (name text : Text) : (ofText name text).size = text.length := rfl

/-- A span that was made lies inside its source and has the numbers it was made from. -/
theorem span?_eq_ok {source : Source} {index length : Int} {span : Span}
    (h : source.span? index length = .ok span) :
    span.stop ≤ source.size ∧ (span.index : Int) = index ∧ (span.length : Int) = length := by
  unfold span? at h
  split at h
  · cases h
  · cases h
    simp only [Span.stop]
    omega

end Source

end SinosLang
