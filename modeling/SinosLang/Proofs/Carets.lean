import SinosLang.Diagnostic
import SinosLang.Proofs.Positions
import SinosLang.Proofs.Text.Delimiters

/-!
# Carets under a span

The display of a diagnostic has three lines: the place and the message, the line that the span begins
on, and carets. An offset cuts its line in two. The carets begin below the cut, and they go on below
the part behind it for as long as the span does; where the span covers nothing of that part, one caret
stands below the cut itself.

Main statement: `render_underlines`.
-/

set_option autoImplicit false

namespace SinosLang

namespace Text

variable {text first : Text} {later : List Text}

/-- The characters before the first newline are the first line. -/
theorem takeWhile_of_lines (shape : lines text = first :: later) :
    text.takeWhile (· != '\n') = first := by
  have noNewline : '\n' ∉ first := newline_not_mem_of_mem_lines (shape ▸ List.mem_cons_self)
  have inside : ∀ c ∈ first, (c != '\n') = true := by
    intro c isIn
    rw [bne_iff_ne]
    rintro rfl
    exact noNewline isIn
  rw [← joinLines_lines text, shape]
  cases later with
  | nil =>
    rw [joinLines_singleton]
    exact List.takeWhile_eq_self_iff.mpr inside
  | cons next later =>
    rw [joinLines_cons]
    exact (takeWhile_append inside (by rintro c ⟨⟩; rfl)).1

end Text

namespace Source

variable {source : Source} {index : Nat} {span : Span}

/-- The part of a line that stands before an offset on it. -/
def lineBefore (source : Source) (index : Nat) : Text :=
  ((source.text.take index).reverse.takeWhile (· != '\n')).reverse

/-- The part of a line that an offset on it stands before. -/
def lineBehind (source : Source) (index : Nat) : Text :=
  (source.text.drop index).takeWhile (· != '\n')

/-- What a span covers of the line that it begins on. -/
def sliceOnLine (source : Source) (span : Span) : Text :=
  (source.slice span).takeWhile (· != '\n')

/-- The column of an offset is counted in the part of its line before it, and the line is what stands
before it and behind it between two newlines. -/
theorem lineColumn_eq (inside : index ≤ source.size) :
    let place := source.lineColumn index
    place.2 = (source.lineBefore index).length + 1 ∧
      source.lineText place.1 = source.lineBefore index ++ source.lineBehind index := by
  intro place
  obtain ⟨parts, last, first, later, before, behind, joined⟩ :=
    Text.splitWhere_join (· == '\n') (source.text.take index) (source.text.drop index)
  rw [List.take_append_drop] at joined
  have lineBefore_eq : source.lineBefore index = last := by
    rw [lineBefore, Text.takeWhile_reverse before, List.reverse_reverse]
  have lineBehind_eq : source.lineBehind index = first := Text.takeWhile_of_lines behind
  have length_eq := congrArg List.length (Text.eq_of_lines before)
  have size_eq := source.size_eq
  rw [List.length_take_of_le (by omega), List.length_append, List.length_flatMap] at length_eq
  have place_eq : place = (parts.length + 1, (last.length + 1 : Int)) := by
    have cut := (lineColumn_of_lines joined).2
    rw [lineStart_of_lines joined] at cut
    rw [← cut]
    simp [place, length_eq]
  rw [place_eq, lineBefore_eq, lineBehind_eq]
  exact ⟨rfl, lineText_of_lines joined⟩

/-- No line has a newline. -/
theorem newline_not_mem_lineText (source : Source) (line : Int) : '\n' ∉ source.lineText line := by
  unfold lineText
  split
  · exact List.not_mem_nil
  · cases found : (Text.lines source.text)[(line - 1).toNat]? with
    | none => exact List.not_mem_nil
    | some text => exact Text.newline_not_mem_of_mem_lines (List.mem_of_getElem? found)

/-- A span covers the beginning of the line behind its first character. -/
theorem sliceOnLine_eq (source : Source) (span : Span) :
    source.sliceOnLine span = (source.lineBehind span.index).take span.length := by
  rw [sliceOnLine, slice, lineBehind, List.take_takeWhile]

/-- A span covers nothing of its line exactly if it is empty or begins with a newline. -/
theorem sliceOnLine_eq_nil_iff (valid : span.stop ≤ source.size) :
    source.sliceOnLine span = [] ↔ span.length = 0 ∨ source.text[span.index]? = some '\n' := by
  rw [sliceOnLine_eq, lineBehind, List.take_eq_nil_iff]
  refine or_congr_right' fun filled => ?_
  have bound : span.index < source.text.length := by
    rw [← source.size_eq]
    rw [Span.stop] at valid
    omega
  rw [List.drop_eq_getElem_cons bound, List.getElem?_eq_getElem bound, Option.some_inj]
  by_cases newline : source.text[span.index] = '\n'
  · simp [newline]
  · simp [newline, bound]

end Source

/-- No message has a newline. -/
theorem Fault.newline_not_mem_message (fault : Fault) : '\n' ∉ fault.message := by
  cases fault <;> decide

namespace Diagnostic

variable {source : Source} {d : Diagnostic}

/-- There are as many carets as the span has characters on its line, but one at least. -/
theorem caretCount_eq (before behind length : Nat) :
    caretCount (before + behind) (before + 1) length = max 1 (min length behind) := by
  rw [caretCount]
  omega

/-- A diagnostic is displayed with the place that its span begins at. -/
theorem render_eq {line column : Nat}
    (place : source.lineColumn d.span.index = (line, (column : Int))) :
    d.render source = Text.joinLines
      [source.name ++ ':' :: Text.ofNat line ++ ':' :: Text.ofNat column ++ ": error: ".toList ++
          d.fault.message,
        source.lineText line,
        List.replicate (column - 1) ' ' ++
          List.replicate (caretCount (source.lineText line).length column d.span.length) '^'] := by
  rw [render, place]
  have indentation : ((column : Int) - 1).toNat = column - 1 := by omega
  simp [indentation, Text.ofInt]

/-- The display of a diagnostic, where the source has a plain name and its span lies in the source, has
three lines. They are the place and the message, the whole line that the span begins on, and at least
one caret. The carets stand below what the span covers of this line, or below its first character if it
covers nothing of it; they reach one column beyond the end of the line at most. -/
theorem render_underlines (plain : '\n' ∉ source.name) (valid : d.span.stop ≤ source.size) :
    ∃ line column width : Nat,
      source.lineColumn d.span.index = (line, (column : Int)) ∧ 1 ≤ column ∧ 1 ≤ width ∧
      source.lineText line = source.lineBefore d.span.index ++ source.lineBehind d.span.index ∧
      Text.lines (d.render source) =
        [source.name ++ ':' :: Text.ofNat line ++ ':' :: Text.ofNat column ++ ": error: ".toList ++
            d.fault.message,
          source.lineText line,
          List.replicate (column - 1) ' ' ++ List.replicate width '^'] ∧
      (d.span.length ≠ 0 ∧ source.text[d.span.index]? ≠ some '\n' →
        (source.sliceOnLine d.span).length = width ∧
          ((source.lineText line).drop (column - 1)).take width = source.sliceOnLine d.span) ∧
      (¬(d.span.length ≠ 0 ∧ source.text[d.span.index]? ≠ some '\n') → width = 1) ∧
      column - 1 + width ≤ (source.lineText line).length + 1 := by
  have inside : d.span.index ≤ source.size := (Nat.le_add_right _ _).trans valid
  obtain ⟨column_eq, line_eq⟩ := Source.lineColumn_eq inside
  rcases place : source.lineColumn d.span.index with ⟨line, column⟩
  rw [place] at column_eq line_eq
  obtain rfl : column = ((source.lineBefore d.span.index).length + 1 : Nat) := column_eq
  have covered := Source.sliceOnLine_eq source d.span
  have covered_length := congrArg List.length covered
  rw [List.length_take] at covered_length
  have nothing_iff := Source.sliceOnLine_eq_nil_iff valid
  refine ⟨line, (source.lineBefore d.span.index).length + 1, max 1 (source.sliceOnLine d.span).length,
    rfl, Nat.le_add_left _ _, Nat.le_max_left _ _, line_eq, ?_, ?_, ?_, ?_⟩
  · have noNewline := source.newline_not_mem_lineText line
    have shown := render_eq place
    rw [line_eq, List.length_append, ← line_eq, Nat.cast_add_one, caretCount_eq, ← covered_length]
      at shown
    rw [shown]
    refine Text.lines_joinLines (List.cons_ne_nil _ _) ?_
    simp [plain, noNewline, d.fault.newline_not_mem_message, Text.not_mem_ofNat (c := '\n') rfl]
  · rintro ⟨filled, noNewline⟩
    have something : source.sliceOnLine d.span ≠ [] := by
      rw [Ne, nothing_iff]
      exact not_or.mpr ⟨filled, noNewline⟩
    have width_eq : max 1 (source.sliceOnLine d.span).length = (source.sliceOnLine d.span).length :=
      max_eq_right (List.length_pos_iff.mpr something)
    refine ⟨width_eq.symm, ?_⟩
    rw [width_eq, line_eq, Nat.add_sub_cancel, List.drop_left, covered_length, covered]
    exact List.take_eq_take_min.symm
  · intro covers
    have nothing : source.sliceOnLine d.span = [] := by
      rw [nothing_iff]
      tauto
    rw [nothing]
    rfl
  · rw [line_eq, List.length_append]
    omega

/-- Of a span over two lines, only what is on the first one is underlined. -/
theorem render_underlines_newline :
    let source := Source.ofText ['n'] "a bc\nd".toList
    let d : Diagnostic := ⟨.unexpectedChar, ⟨2, 4⟩⟩
    '\n' ∉ source.name ∧ d.span.stop ≤ source.size ∧
      Text.lines (d.render source) =
        ["n:1:3: error: unexpected character".toList, "a bc".toList, "  ^^".toList] := by
  intro source d
  have plain : '\n' ∉ source.name := by decide
  have valid : d.span.stop ≤ source.size := by decide
  have at_place : source.lineColumn d.span.index = (1, 3) := by decide
  obtain ⟨line, column, width, place, _, _, _, shown, underlined, _⟩ := render_underlines plain valid
  obtain ⟨rfl, isThird⟩ := Prod.mk.inj (at_place.symm.trans place)
  obtain rfl : column = 3 := Int.ofNat.inj isThird.symm
  obtain rfl : 2 = width := (underlined (by decide)).1
  exact ⟨plain, valid, shown⟩

end Diagnostic

end SinosLang
