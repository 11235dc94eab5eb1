import SinosLang.Text.Basic
import Mathlib.Data.List.TakeWhile

/-!
# The parts of a text

A text is cut at every character of a class. Its words are the parts between blanks that are not
empty, so a text with some words is made up of these words and blanks: at least one blank between
each two of them, and any number at both ends.

Main statements: `splitWhere_join`, `lines_joinLines`, `exists_of_words_cons` and `blank_of_words_nil`.
-/

set_option autoImplicit false

namespace SinosLang.Text

variable {cuts : Char → Bool} {c : Char} {front back text margin first : Text}
  {later : List Text}

/-- A text without a cut is one part. -/
theorem splitWhere_of_uncut (uncut : ∀ c ∈ text, cuts c = false) : splitWhere cuts text = [text] := by
  induction text with
  | nil => rfl
  | cons c text ih =>
    have behind := ih fun c isIn => uncut c (List.mem_cons_of_mem _ isIn)
    rw [splitWhere, uncut c List.mem_cons_self, if_neg Bool.false_ne_true, behind]

/-- Where one text ends and another begins, the last part of the first and the first part of the second
become one. -/
theorem splitWhere_join (cuts : Char → Bool) (front back : Text) :
    ∃ parts last first later, splitWhere cuts front = parts ++ [last] ∧
      splitWhere cuts back = first :: later ∧
      splitWhere cuts (front ++ back) = parts ++ (last ++ first) :: later := by
  obtain ⟨first, later, behind⟩ := List.exists_cons_of_ne_nil (splitWhere_ne_nil cuts back)
  rw [behind]
  induction front with
  | nil => exact ⟨[], [], first, later, rfl, rfl, behind⟩
  | cons c front ih =>
    obtain ⟨parts, last, _, _, shape, ⟨⟩, joined⟩ := ih
    rw [List.cons_append, splitWhere, splitWhere, shape, joined]
    cases cuts c with
    | true => exact ⟨[] :: parts, last, first, later, rfl, rfl, rfl⟩
    | false =>
      cases parts with
      | nil => exact ⟨[], c :: last, first, later, rfl, rfl, rfl⟩
      | cons part parts => exact ⟨(c :: part) :: parts, last, first, later, rfl, rfl, rfl⟩

/-- A text without a cut behind another one goes to the last of its parts. -/
theorem splitWhere_append (uncut : ∀ c ∈ back, cuts c = false) (front : Text) :
    ∃ parts last, splitWhere cuts front = parts ++ [last] ∧
      splitWhere cuts (front ++ back) = parts ++ [last ++ back] := by
  obtain ⟨parts, last, first, later, shape, behind, joined⟩ := splitWhere_join cuts front back
  rw [splitWhere_of_uncut uncut] at behind
  cases behind
  exact ⟨parts, last, shape, joined⟩

/-- There is no cut within a part. -/
theorem uncut_of_mem_splitWhere {part : Text} (isPart : part ∈ splitWhere cuts text) :
    ∀ c ∈ part, cuts c = false := by
  induction text generalizing part with
  | nil =>
    obtain rfl := List.mem_singleton.mp isPart
    exact fun _ isIn => absurd isIn List.not_mem_nil
  | cons c text ih =>
    obtain ⟨first, later, shape⟩ := List.exists_cons_of_ne_nil (splitWhere_ne_nil cuts text)
    rw [splitWhere, shape] at isPart
    rw [shape] at ih
    cases isCut : cuts c with
    | true =>
      rw [if_pos isCut] at isPart
      rcases List.mem_cons.mp isPart with rfl | isLater
      · exact fun _ isIn => absurd isIn List.not_mem_nil
      · exact ih isLater
    | false =>
      rw [isCut, if_neg Bool.false_ne_true] at isPart
      rcases List.mem_cons.mp isPart with rfl | isLater
      · exact List.forall_mem_cons.mpr ⟨isCut, ih List.mem_cons_self⟩
      · exact ih (List.mem_cons_of_mem _ isLater)

/-- The first part goes up to the first cut. -/
theorem splitWhere_of_cut (uncut : ∀ c ∈ front, cuts c = false) (isCut : cuts c = true)
    (text : Text) : splitWhere cuts (front ++ c :: text) = front :: splitWhere cuts text := by
  induction front with
  | nil => rw [List.nil_append, splitWhere, if_pos isCut]
  | cons d front ih =>
    have behind := ih fun c isIn => uncut c (List.mem_cons_of_mem _ isIn)
    rw [List.cons_append, splitWhere, uncut d List.mem_cons_self, if_neg Bool.false_ne_true, behind]

/-! ## Joined lines -/

/-- A single line is joined to itself. -/
theorem joinLines_singleton (line : Text) : joinLines [line] = line := by
  simp [joinLines, join, List.intercalate]

/-- The first line stands in front of a line break and the joined others. -/
theorem joinLines_cons (line next : Text) (lines : List Text) :
    joinLines (line :: next :: lines) = line ++ '\n' :: joinLines (next :: lines) := by
  simp [joinLines, join, List.intercalate]

/-- Lines in front of others, each with its newline. -/
theorem joinLines_append (earlier : List Text) (line : Text) (others : List Text) :
    joinLines (earlier ++ line :: others) =
      earlier.flatMap (· ++ ['\n']) ++ joinLines (line :: others) := by
  induction earlier with
  | nil => rfl
  | cons first earlier ih =>
    obtain ⟨next, rest, shape⟩ := List.exists_cons_of_ne_nil
      (List.append_ne_nil_of_right_ne_nil earlier (List.cons_ne_nil line others))
    rw [shape] at ih
    rw [List.cons_append, shape, joinLines_cons, ih]
    simp

/-- What the first line begins with comes first. -/
theorem joinLines_append_cons (start line : Text) (others : List Text) :
    joinLines ((start ++ line) :: others) = start ++ joinLines (line :: others) := by
  cases others with
  | nil => rw [joinLines_singleton, joinLines_singleton]
  | cons next others => rw [joinLines_cons, joinLines_cons, List.append_assoc]

/-- No line has a newline. -/
theorem newline_not_mem_of_mem_lines {line : Text} (isLine : line ∈ lines text) : '\n' ∉ line := by
  intro isIn
  have uncut := uncut_of_mem_splitWhere isLine '\n' isIn
  cases uncut

/-- Lines that were joined are split up again. -/
theorem lines_joinLines {parts : List Text} (filled : parts ≠ [])
    (noNewline : ∀ part ∈ parts, '\n' ∉ part) : lines (joinLines parts) = parts := by
  have uncut (part : Text) (isPart : part ∈ parts) : ∀ c ∈ part, (c == '\n') = false := by
    intro c isIn
    exact beq_false_of_ne fun isNewline => noNewline part isPart (isNewline ▸ isIn)
  clear noNewline
  induction parts with
  | nil => exact absurd rfl filled
  | cons first parts ih =>
    have before := uncut first List.mem_cons_self
    cases parts with
    | nil =>
      rw [joinLines_singleton]
      exact splitWhere_of_uncut before
    | cons next parts =>
      have behind := ih (List.cons_ne_nil _ _) fun part isPart =>
        uncut part (List.mem_cons_of_mem _ isPart)
      rw [joinLines_cons, lines, splitWhere_of_cut before rfl]
      exact congrArg (first :: ·) behind

/-! ## Words -/

/-- Blanks before a text add no word. -/
theorem words_blanks (isMargin : ∀ c ∈ margin, isBlank c = true) (text : Text) :
    words (margin ++ text) = words text := by
  induction margin with
  | nil => rfl
  | cons c margin ih =>
    have behind := ih fun c isIn => isMargin c (List.mem_cons_of_mem _ isIn)
    rw [← behind, List.cons_append, words, words, splitWhere, if_pos (isMargin c List.mem_cons_self)]
    rfl

/-- A word goes up to the next blank. -/
theorem words_append (filled : front ≠ []) (noBlank : ∀ c ∈ front, isBlank c = false)
    (boundary : ∀ c, text.head? = some c → isBlank c = true) :
    words (front ++ text) = front :: words text := by
  have isWord : (!front.isEmpty) = true := by simpa using filled
  cases text with
  | nil =>
    rw [List.append_nil, words, splitWhere_of_uncut noBlank]
    simp only [List.filter_cons, isWord, if_true]
    rfl
  | cons c text =>
    have blank : words ([c] ++ text) = words text :=
      words_blanks (by simpa using boundary c rfl) text
    rw [List.singleton_append] at blank
    rw [blank, words, splitWhere_of_cut noBlank (boundary c rfl)]
    simp only [List.filter_cons, isWord, if_true]
    rfl

/-- Every text is blank, or it has a first word behind some blanks. -/
theorem exists_word (text : Text) : (∀ c ∈ text, isBlank c = true) ∨
    ∃ margin first rest, text = margin ++ (first ++ rest) ∧ (∀ c ∈ margin, isBlank c = true) ∧
      first ≠ [] ∧ (∀ c ∈ first, isBlank c = false) ∧
      ∀ c, rest.head? = some c → isBlank c = true := by
  induction text with
  | nil => exact .inl fun _ isIn => absurd isIn List.not_mem_nil
  | cons c text ih =>
    cases blank : isBlank c with
    | true =>
      rcases ih with allBlank | ⟨margin, first, rest, rfl, isMargin, isFirst⟩
      · exact .inl (List.forall_mem_cons.mpr ⟨blank, allBlank⟩)
      · exact .inr ⟨c :: margin, first, rest, rfl, List.forall_mem_cons.mpr ⟨blank, isMargin⟩,
          isFirst⟩
    | false =>
      refine .inr ⟨[], c :: text.takeWhile (!isBlank ·), text.dropWhile (!isBlank ·), ?_, ?_,
        List.cons_ne_nil _ _, ?_, ?_⟩
      · rw [List.nil_append, List.cons_append, List.takeWhile_append_dropWhile]
      · exact fun _ isIn => absurd isIn List.not_mem_nil
      · refine List.forall_mem_cons.mpr ⟨blank, fun d isIn => ?_⟩
        simpa using List.mem_takeWhile_imp isIn
      · intro d head
        have := List.head?_dropWhile_not (!isBlank ·) text
        rw [head] at this
        simpa using this

/-- The first word of a text stands behind blanks, and the other words stand behind it. -/
theorem exists_of_words_cons (shape : words text = first :: later) :
    ∃ margin rest, text = margin ++ (first ++ rest) ∧ (∀ c ∈ margin, isBlank c = true) ∧
      (∀ c ∈ first, isBlank c = false) ∧ (∀ c, rest.head? = some c → isBlank c = true) ∧
      words rest = later := by
  rcases exists_word text with allBlank | ⟨margin, word, rest, rfl, isMargin, filled, isWord, ends⟩
  · have noWord := words_blanks allBlank []
    rw [List.append_nil, shape] at noWord
    cases noWord
  · rw [words_blanks isMargin, words_append filled isWord ends] at shape
    obtain ⟨rfl, rfl⟩ := List.cons.inj shape
    exact ⟨margin, rest, rfl, isMargin, isWord, ends, rfl⟩

/-- A text without words is blank. -/
theorem blank_of_words_nil (shape : words text = []) : ∀ c ∈ text, isBlank c = true := by
  rcases exists_word text with allBlank | ⟨margin, word, rest, rfl, isMargin, filled, isWord, ends⟩
  · exact allBlank
  · rw [words_blanks isMargin, words_append filled isWord ends] at shape
    cases shape

end SinosLang.Text
