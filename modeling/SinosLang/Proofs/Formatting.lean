import SinosLang.Proofs.Files
import SinosLang.Proofs.Lexing.Lines
import SinosLang.Proofs.Node.LineEnds
import SinosLang.Proofs.Parse.Naming

/-!
# Formatting is a fixpoint through the files

A program that was formatted into a file is read from there as it was written, since no carriage
return is ever written. It is parsed into a tree of the same shape, whose source text is the same, so
formatting the file writes the same characters again.

Main statement: `formatting_fixpoint`.
-/

set_option autoImplicit false

namespace SinosLang

open Grammar

/-- The source text of a well-formed tree, as a line, is parsed into a tree of its shape. -/
theorem Source.exists_parse_sourceText_line {tree : Node} (wellFormed : tree.WellFormed)
    (name : Text) :
    ∃ again, (ofText name (tree.sourceText ++ ['\n'])).parse = .ok again ∧
      again.erase = tree.erase := by
  obtain ⟨tokens, lexes, derived⟩ := Node.exists_program wellFormed.isModule wellFormed.proper
  have lexes' : Lexes 0 (ofText name (tree.sourceText ++ ['\n'])).text tokens := by
    simpa using lexes.line (.done rfl)
  exact (exists_parse_iff lexes').mpr ⟨derived, wellFormed.few, wellFormed.low⟩

namespace Request

variable {request : Request} {before after middle : Folder} {format : OutputFormat}
  {source : Source} {name text path out : Text} {tree : Node} {place other : List Text}

/-- The request to write a program to a file as source text. -/
def toSource (input : Text) (isText : Bool) (out : Text) : Request where
  input := input
  isText := isText
  format := "source".toList
  out? := some out

/-- A run with something to show writes it to the file that it is asked to write. -/
theorem run_written (valid : request.IsValid format)
    (found : request.sourceIn before = .ok source)
    (shown : request.view format source = .ok text) (goal : request.destination? = some path)
    (wrote : before.write path (text ++ ['\n']) = .ok after) :
    request.run WatchedFolder.disk ⟨before, []⟩ =
      (.ok ⟨[], [], 0⟩, ⟨after, request.reading ++ [.write path (text ++ ['\n'])]⟩) := by
  rw [run_of_sourceIn valid found, shown]
  dsimp only
  rw [deliver_written goal, wrote]
  rfl

/-- A program is formatted into every file that can be opened for writing. -/
theorem run_toSource {input : Text} {isText : Bool}
    (isProgram : isText = true ∨ sourceSuffix <:+ input)
    (found : (toSource input isText out).sourceIn before = .ok source)
    (parsed : source.parse = .ok tree) (opened : before.target out = .ok place) :
    ∃ after, before.write out (tree.sourceText ++ ['\n']) = .ok after ∧
      (toSource input isText out).run WatchedFolder.disk ⟨before, []⟩ =
        (.ok ⟨[], [], 0⟩, ⟨after, (toSource input isText out).reading ++
          [.write out (tree.sourceText ++ ['\n'])]⟩) ∧
      (toSource input isText out).run Folder.disk before = (.ok ⟨[], [], 0⟩, after) := by
  have valid : (toSource input isText out).IsValid .source := ⟨isProgram, rfl⟩
  have shown : (toSource input isText out).view .source source = .ok tree.sourceText := by
    show source.rendering .source = _
    rw [Source.rendering, parsed]
    rfl
  have filled : out ≠ [] := (Folder.locate_eq_ok_iff.mp (Folder.target_eq_ok_iff.mp opened).1).2.1
  have goal : (toSource input isText out).destination? = some out := by
    obtain ⟨first, rest, rfl⟩ := List.exists_cons_of_ne_nil filled
    rfl
  obtain ⟨after, wrote⟩ : ∃ after, before.write out (tree.sourceText ++ ['\n']) = .ok after := by
    rw [Folder.write, opened]
    exact ⟨_, rfl⟩
  have watched := run_written valid found shown goal wrote
  have unwatched := run_unwatched (toSource input isText out) ⟨before, []⟩
  rw [watched] at unwatched
  exact ⟨after, wrote, watched, unwatched⟩

/-- A program that was formatted into a source file is formatted from there into any file with the
very same characters. The file is parsed into a tree of the shape of the first one. -/
theorem formatting_fixpoint (parsed : (Source.ofText name text).parse = .ok tree)
    (isSource : sourceSuffix <:+ path) (opened : before.target path = .ok place)
    (openedToo : before.target out = .ok other) :
    ∃ (contents : Text) (middle after : Folder) (again : Node),
      run Folder.disk (toSource text true path) before = (.ok ⟨[], [], 0⟩, middle) ∧
      before.Written middle path contents ∧ middle.file? place = some (.text contents) ∧
      run Folder.disk (toSource path false out) middle = (.ok ⟨[], [], 0⟩, after) ∧
      run WatchedFolder.disk (toSource path false out) ⟨middle, []⟩ =
        (.ok ⟨[], [], 0⟩, ⟨after, [.read path, .write out contents]⟩) ∧
      middle.Written after out contents ∧
      (Source.ofText path contents).parse = .ok again ∧ again.erase = tree.erase := by
  have wellFormed := Source.wellFormed_of_parse parsed
  have parsed' : (Source.ofText textSourceName text).parse = .ok tree := by
    rw [Source.parse_ofText name, parsed]
  obtain ⟨middle, wrote, _, first⟩ := run_toSource (.inl rfl) rfl parsed' opened
  -- the file holds what was written, and no line end is changed when it is read
  have notNull : place ≠ Folder.nullDevice :=
    Folder.ne_nullDevice_of_suffix isSource (by decide) (by decide) opened
  have middle_eq : middle = before.put place (tree.sourceText ++ ['\n']) := by
    rw [Folder.write, opened] at wrote
    dsimp only at wrote
    rw [if_neg fun isNull => notNull (eq_of_beq isNull)] at wrote
    exact (Except.ok.inj wrote).symm
  have noReturn : Text.NoReturn (tree.sourceText ++ ['\n']) := by
    simpa using tree.noReturn_sourceText wellFormed.proper
  have found : (toSource path false out).sourceIn middle =
      .ok (Source.ofText path (tree.sourceText ++ ['\n'])) := by
    show (middle.read path).map _ = _
    rw [middle_eq, Folder.read_put opened, Text.unifyNewlines_of_noReturn noReturn]
    rfl
  obtain ⟨again, reparsed, same⟩ := Source.exists_parse_sourceText_line wellFormed path
  have sameText := Node.sourceText_eq_of_erase_eq same
  have openedLater : middle.target out = .ok other := by
    rw [middle_eq]
    exact Folder.target_put opened openedToo
  obtain ⟨after, wroteAgain, watched, second⟩ :=
    run_toSource (.inr isSource) found reparsed openedLater
  rw [sameText] at wroteAgain watched
  refine ⟨tree.sourceText ++ ['\n'], middle, after, again, first, Folder.written_of_write wrote, ?_,
    second, watched, Folder.written_of_write wroteAgain, reparsed, same⟩
  rw [middle_eq, Folder.file?_put_self]

/-- A string with a carriage return, which is written as an escape. -/
theorem formatting_fixpoint_return :
    ∃ contents middle after,
      run Folder.disk (toSource ['"', '\r', '"', ';'] true "a.sinos".toList) ⟨[], [], []⟩ =
        (.ok ⟨[], [], 0⟩, middle) ∧
      middle.file? ["a.sinos".toList] = some (.text contents) ∧
      run WatchedFolder.disk (toSource "a.sinos".toList false "b".toList) ⟨middle, []⟩ =
        (.ok ⟨[], [], 0⟩, ⟨after, [.read "a.sinos".toList, .write "b".toList contents]⟩) := by
  have parsed : (Source.ofText [] ['"', '\r', '"', ';']).parse =
      .ok (.module ⟨0, 4⟩ [.exprStmt ⟨0, 4⟩ (.string ⟨0, 3⟩ ['\r'])]) := by cbv
  have isSource : sourceSuffix <:+ "a.sinos".toList := by decide
  have opened : Folder.target ⟨[], [], []⟩ "a.sinos".toList = .ok ["a.sinos".toList] := by
    decide +kernel
  have openedToo : Folder.target ⟨[], [], []⟩ "b".toList = .ok ["b".toList] := by decide +kernel
  obtain ⟨contents, middle, after, _, first, _, holds, _, second, _⟩ :=
    formatting_fixpoint parsed isSource opened openedToo
  exact ⟨contents, middle, after, first, holds, second⟩

end Request

end SinosLang
