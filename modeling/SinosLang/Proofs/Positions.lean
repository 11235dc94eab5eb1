import SinosLang.Source
import SinosLang.Proofs.Lexing.Spelling
import SinosLang.Proofs.Text.Parts
import Mathlib.Algebra.BigOperators.Intervals
import Mathlib.Algebra.Order.BigOperators.Group.Finset

/-!
# Lines and columns

An offset cuts a source in two. The lines of the front and the lines of the back are the lines of the
source, but for the line that the cut goes through: the column is counted in the part of it that
belongs to the front. So the line and the column of an offset are found by counting on either side,
and the offset is found again from the lengths of the lines.

Main statement: `lineColumn_invertible`.
-/

set_option autoImplicit false

namespace SinosLang

namespace Text

variable {text last first : Text} {parts later : List Text}

/-- There is one line more than there are newlines. -/
theorem length_lines (text : Text) : (lines text).length = text.count '\n' + 1 := by
  induction text with
  | nil => rfl
  | cons c text ih =>
    obtain ⟨part, later, shape⟩ := List.exists_cons_of_ne_nil (splitWhere_ne_nil (· == '\n') text)
    rw [lines, shape] at ih
    rw [lines, splitWhere, shape, List.count_cons]
    cases c == '\n' with
    | true => exact congrArg (· + 1) ih
    | false => exact ih

/-- A text is its lines, all but the last one with a newline. -/
theorem eq_of_lines (shape : lines text = parts ++ [last]) :
    text = parts.flatMap (· ++ ['\n']) ++ last := by
  rw [← joinLines_singleton last, ← joinLines_append, ← shape, joinLines_lines]

/-- A character stands at the front of the first line, unless it is a newline, which ends an empty
one. -/
theorem lines_head {c : Char} {rest : Text} (shape : lines (c :: rest) = first :: later) :
    if c = '\n' then first = [] else first.head? = some c := by
  obtain ⟨part, others, behind⟩ := List.exists_cons_of_ne_nil (splitWhere_ne_nil (· == '\n') rest)
  rw [lines, splitWhere, behind] at shape
  by_cases newline : c = '\n'
  · rw [if_pos (beq_iff_eq.mpr newline)] at shape
    rw [if_pos newline]
    exact (List.cons.inj shape).1.symm
  · rw [if_neg (mt beq_iff_eq.mp newline)] at shape
    rw [if_neg newline, ← (List.cons.inj shape).1]
    rfl

/-- The characters behind the last newline are the last line. -/
theorem takeWhile_reverse (shape : lines text = parts ++ [last]) :
    text.reverse.takeWhile (· != '\n') = last.reverse := by
  have noNewline : '\n' ∉ last :=
    newline_not_mem_of_mem_lines (shape ▸ List.mem_append_right parts List.mem_cons_self)
  rw [eq_of_lines shape, List.reverse_append]
  refine (takeWhile_append (fun c isIn => ?_) fun c head => ?_).1
  · rw [bne_iff_ne]
    rintro rfl
    exact noNewline (List.mem_reverse.mp isIn)
  · rcases List.eq_nil_or_concat parts with rfl | ⟨earlier, part, rfl⟩
    · cases head
    · simp at head
      simp [← head]

end Text

namespace Source

variable {source : Source} {last first : Text} {parts later : List Text} {index : Nat}

/-- The offset at which a line begins: every line before it counts with its newline. -/
def lineStart (source : Source) (line : Nat) : Nat :=
  (Finset.Ico 1 line).sum fun earlier => (source.lineText earlier).length + 1

/-- The offset of a line and a column. -/
def offset (source : Source) (place : Nat × Int) : Int :=
  source.lineStart place.1 + (place.2 - 1)

/-- A line that a source has, with the column of one of its characters or the one behind them. -/
structure HasPlace (source : Source) (place : Nat × Int) : Prop where
  line_pos : 1 ≤ place.1
  line_le : place.1 ≤ 1 + source.text.count '\n'
  column_pos : 1 ≤ place.2
  column_le : place.2 ≤ (source.lineText place.1).length + 1

/-- The text of a line is the part of the source that the line breaks cut out, or nothing if there
is no such line. -/
theorem lineText_succ (source : Source) (line : Nat) :
    source.lineText (line + 1 : Nat) = ((Text.lines source.text)[line]?).getD [] := by
  have pos : ¬ ((line + 1 : Nat) : Int) < 1 := by omega
  have place : (((line + 1 : Nat) : Int) - 1).toNat = line := by omega
  rw [lineText, if_neg pos, place]

/-- The text of a line behind some others. -/
theorem lineText_of_lines {line : Text} (shape : Text.lines source.text = parts ++ line :: later) :
    source.lineText (parts.length + 1 : Nat) = line := by
  rw [lineText_succ, shape, List.getElem?_append_right (Nat.le_refl _), Nat.sub_self]
  rfl

/-- A line begins behind those before it. -/
theorem lineStart_of_lines (shape : Text.lines source.text = parts ++ later) :
    source.lineStart (parts.length + 1) = (parts.map fun part => part.length + 1).sum := by
  induction parts using List.reverseRecOn generalizing later with
  | nil => rfl
  | append_singleton parts line ih =>
    rw [List.append_assoc] at shape
    rw [List.length_append, List.length_singleton, lineStart, Finset.sum_Ico_succ_top (by omega),
      ← lineStart, ih shape, lineText_of_lines shape]
    simp

/-- The end of a part of a line that stands behind some others is found by counting. -/
theorem lineColumn_of_lines (shape : Text.lines source.text = parts ++ (last ++ first) :: later) :
    let index := source.lineStart (parts.length + 1) + last.length
    index ≤ source.size ∧ source.lineColumn index = (parts.length + 1, (last.length + 1 : Int)) := by
  intro index
  have noNewline : ∀ part ∈ parts ++ (last ++ first) :: later, '\n' ∉ part :=
    fun part isPart => Text.newline_not_mem_of_mem_lines (shape ▸ isPart)
  have text_eq : source.text =
      Text.joinLines (parts ++ [last]) ++ Text.joinLines (first :: later) := by
    rw [← Text.joinLines_lines source.text, shape, Text.joinLines_append, Text.joinLines_append,
      Text.joinLines_append_cons, Text.joinLines_singleton, List.append_assoc]
  have split : Text.lines (Text.joinLines (parts ++ [last])) = parts ++ [last] := by
    refine Text.lines_joinLines (List.append_ne_nil_of_right_ne_nil _ (List.cons_ne_nil _ _)) ?_
    intro part isPart
    rcases List.mem_append.mp isPart with earlier | isLast
    · exact noNewline part (List.mem_append_left _ earlier)
    · have whole := noNewline _ (List.mem_append_right _ List.mem_cons_self)
      rw [List.mem_singleton.mp isLast]
      exact fun isIn => whole (List.mem_append_left _ isIn)
  have index_eq : index = (Text.joinLines (parts ++ [last])).length := by
    simp only [index, lineStart_of_lines shape, Text.joinLines_append, Text.joinLines_singleton,
      List.length_append, List.length_flatMap, List.length_singleton]
  have size_eq := source.size_eq
  rw [text_eq, List.length_append, ← index_eq] at size_eq
  have count_eq := Text.length_lines (Text.joinLines (parts ++ [last]))
  rw [split, List.length_append, List.length_singleton] at count_eq
  have before_eq : source.before index = Text.joinLines (parts ++ [last]) := by
    have notNegative : ¬ (index : Int) < 0 := by omega
    rw [before, fromEnd, if_neg notNegative, Int.toNat_natCast, text_eq, index_eq, List.take_left]
  refine ⟨by omega, ?_⟩
  rw [lineColumn, before_eq, Text.takeWhile_reverse split, List.length_reverse, ← index_eq, ← count_eq]
  congr 1
  omega

/-- Every offset is the end of a part of a line, and the rest of the line is the first line of what
follows. -/
theorem exists_lines (inside : index ≤ source.size) :
    ∃ parts last first later, Text.lines source.text = parts ++ (last ++ first) :: later ∧
      index = source.lineStart (parts.length + 1) + last.length ∧
      Text.lines (source.text.drop index) = first :: later := by
  obtain ⟨parts, last, first, later, before, behind, joined⟩ :=
    Text.splitWhere_join (· == '\n') (source.text.take index) (source.text.drop index)
  rw [List.take_append_drop] at joined
  refine ⟨parts, last, first, later, joined, ?_, behind⟩
  have length_eq := congrArg List.length (Text.eq_of_lines before)
  have size_eq := source.size_eq
  rw [List.length_take_of_le (by omega), List.length_append, List.length_flatMap] at length_eq
  rw [length_eq, lineStart_of_lines joined]
  simp

/-! ## Places -/

/-- A line does not start before the lines above it. -/
theorem lineStart_mono {line other : Nat} (le : line ≤ other) :
    source.lineStart line ≤ source.lineStart other :=
  Finset.sum_le_sum_of_subset (Finset.Ico_subset_Ico_right le)

/-- A line starts behind the line break of the one above it. -/
theorem lineStart_succ {line : Nat} (pos : 1 ≤ line) :
    source.lineStart (line + 1) = source.lineStart line + ((source.lineText line).length + 1) :=
  Finset.sum_Ico_succ_top pos _

/-- The place of an offset is one that the source has, and the offset is found from it. -/
theorem hasPlace_lineColumn (inside : index ≤ source.size) :
    source.HasPlace (source.lineColumn index) ∧
      (index : Int) = source.offset (source.lineColumn index) := by
  obtain ⟨parts, last, first, later, shape, rfl, behind⟩ := exists_lines inside
  have count_eq := Text.length_lines source.text
  rw [shape, List.length_append, List.length_cons] at count_eq
  rw [(lineColumn_of_lines shape).2]
  have line_eq := lineText_of_lines shape
  refine ⟨⟨?_, ?_, ?_, ?_⟩, ?_⟩
  · exact Nat.le_add_left _ _
  · show parts.length + 1 ≤ 1 + source.text.count '\n'
    omega
  · show (1 : Int) ≤ last.length + 1
    omega
  · show (last.length + 1 : Int) ≤ (source.lineText (parts.length + 1 : Nat)).length + 1
    rw [line_eq, List.length_append]
    omega
  · show _ = (source.lineStart (parts.length + 1) : Int) + (last.length + 1 - 1)
    omega

/-- The character at an offset is the one in its column of the line, or the newline behind the line. -/
theorem character_lineColumn {c : Char} (inside : index ≤ source.size)
    (found : source.text[index]? = some c) :
    let place := source.lineColumn index
    (c = '\n' ↔ place.2 = (source.lineText place.1).length + 1) ∧
      (c ≠ '\n' → (source.lineText place.1)[(place.2 - 1).toNat]? = some c) := by
  intro place
  obtain ⟨parts, last, first, later, shape, rfl, behind⟩ := exists_lines inside
  have place_eq : place = (parts.length + 1, (last.length + 1 : Int)) := (lineColumn_of_lines shape).2
  have line_eq : source.lineText place.1 = last ++ first := by
    rw [place_eq]
    exact lineText_of_lines shape
  have column_eq : place.2 = last.length + 1 := by
    rw [place_eq]
  rw [← List.head?_drop] at found
  obtain ⟨rest, dropped⟩ := List.head?_eq_some_iff.mp found
  rw [dropped] at behind
  have head := Text.lines_head behind
  rw [line_eq, column_eq, List.length_append]
  by_cases newline : c = '\n'
  · rw [if_pos newline] at head
    simp [newline, head]
  · rw [if_neg newline] at head
    obtain ⟨others, rfl⟩ := List.head?_eq_some_iff.mp head
    simp [newline]
    omega

/-- Every place that a source has is that of an offset. -/
theorem exists_offset {place : Nat × Int} (has : source.HasPlace place) :
    ∃ index ≤ source.size, source.lineColumn index = place := by
  obtain ⟨line, column⟩ := place
  obtain ⟨line_pos, line_le, column_pos, column_le⟩ := has
  obtain ⟨earlier, rfl⟩ : ∃ earlier, line = earlier + 1 := ⟨line - 1, by omega⟩
  obtain ⟨width, rfl⟩ : ∃ width : Nat, column = width + 1 := ⟨(column - 1).toNat, by omega⟩
  have count_eq := Text.length_lines source.text
  have bound : earlier < (Text.lines source.text).length := by omega
  -- the line is cut behind the character before the column
  have shape : Text.lines source.text = (Text.lines source.text).take earlier ++
      ((Text.lines source.text)[earlier].take width ++
        (Text.lines source.text)[earlier].drop width) ::
          (Text.lines source.text).drop (earlier + 1) := by
    rw [List.take_append_drop, List.getElem_cons_drop, List.take_append_drop]
  have line_eq : source.lineText (earlier + 1 : Nat) = (Text.lines source.text)[earlier] := by
    rw [lineText_succ, List.getElem?_eq_getElem bound]
    rfl
  rw [line_eq] at column_le
  obtain ⟨inside, place_eq⟩ := lineColumn_of_lines shape
  rw [List.length_take_of_le bound.le, List.length_take_of_le (by omega)] at place_eq inside
  exact ⟨_, inside, place_eq⟩

/-- Of two places, the one with the smaller offset stands on an earlier line, or further to the left
on the same line. -/
theorem place_lt {place other : Nat × Int} (has : source.HasPlace place)
    (has' : source.HasPlace other) (lt : source.offset place < source.offset other) :
    Prod.Lex (· < ·) (· < ·) place other := by
  obtain ⟨line, column⟩ := place
  obtain ⟨line', column'⟩ := other
  have column_pos : 1 ≤ column := has.column_pos
  have line_pos : 1 ≤ line' := has'.line_pos
  have column_le : column' ≤ (source.lineText line').length + 1 := has'.column_le
  simp only [offset] at lt
  rcases Nat.lt_trichotomy line line' with earlier | rfl | later
  · exact .left _ _ earlier
  · exact .right _ (by omega)
  · have mono : source.lineStart (line' + 1) ≤ source.lineStart line := lineStart_mono later
    rw [lineStart_succ line_pos] at mono
    omega

/-- The line and the column of an offset are within the lines of the source; the offset is the sum of
the lengths of the lines before, each with its newline, and of the columns before; and the character
there is the one in this column of the line, or the newline behind it. No two offsets have one place,
later offsets have later places, and every place within the lines is that of an offset. -/
theorem lineColumn_invertible (source : Source) :
    (∀ index : Nat, index ≤ source.size →
      let place := source.lineColumn index
      source.HasPlace place ∧ (index : Int) = source.offset place ∧
        ∀ c, source.text[index]? = some c →
          (c = '\n' ↔ place.2 = (source.lineText place.1).length + 1) ∧
            (c ≠ '\n' → (source.lineText place.1)[(place.2 - 1).toNat]? = some c)) ∧
    (∀ index other : Nat, index ≤ source.size → other ≤ source.size →
      source.lineColumn index = source.lineColumn other → index = other) ∧
    (∀ index other : Nat, index < other → other ≤ source.size →
      Prod.Lex (· < ·) (· < ·) (source.lineColumn index) (source.lineColumn other)) ∧
    ∀ place, source.HasPlace place → ∃ index : Nat, index ≤ source.size ∧
      source.lineColumn index = place := by
  refine ⟨fun index inside => ?_, fun index other inside inside' same => ?_,
    fun index other lt inside => ?_, fun place has => exists_offset has⟩
  · obtain ⟨has, offset_eq⟩ := hasPlace_lineColumn inside
    exact ⟨has, offset_eq, fun c found => character_lineColumn inside found⟩
  · rw [← Int.natCast_inj, (hasPlace_lineColumn inside).2, (hasPlace_lineColumn inside').2, same]
  · obtain ⟨has, offset_eq⟩ := hasPlace_lineColumn (lt.le.trans inside)
    obtain ⟨has', offset_eq'⟩ := hasPlace_lineColumn inside
    exact place_lt has has' (by omega)

/-- The end of a text, behind an empty line and a newline. -/
theorem lineColumn_invertible_end :
    let source := ofText [] "a\n\n".toList
    source.HasPlace (3, 1) ∧ source.offset (3, 1) = 3 := by
  intro source
  have at_end : source.lineColumn (3 : Nat) = (3, 1) := by decide
  obtain ⟨has, offset_eq, _⟩ := (lineColumn_invertible source).1 3 (by decide)
  rw [at_end] at has offset_eq
  exact ⟨has, offset_eq.symm⟩

end Source

end SinosLang
