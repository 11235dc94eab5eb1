import SinosLang.Proofs.Braces
import SinosLang.Proofs.Chunks
import SinosLang.Proofs.Parse.Naming
import SinosLang.Proofs.Text.Parts

/-!
# When a session asks for another line

A session stops reading a chunk behind the first line that leaves no brace open, and before each
further line it has asked for one. It weighs characters, so this is the line at which the tokens read
so far leave none open only if the comments and the strings among them open as many braces as they
close.

Main statement: `readsUntil_closed`.
-/

set_option autoImplicit false

namespace SinosLang

/-- The source that some lines make up. -/
def Source.ofLines (lines : List Text) : Source :=
  Source.ofText [] (Text.joinLines lines)

namespace PendingChunk

/-- The prompts for so many lines, the first of which may be the first one of its chunk. -/
def prompts (begins : Bool) : Nat → Text
  | 0 => []
  | count + 1 => (if begins then ">>> ".toList else "... ".toList) ++ prompts false count

/-- Of some lines, a session reads the first ones that are complete in some sense as a chunk and
leaves the others, and it prompts for each line that it reads. If no lines of them are complete, it
prompts for one more line than there are. -/
structure ReadsUntil (complete : List Text → Prop) (lines : List Text) : Prop where
  stops : ∀ front back, lines = front ++ back → front ≠ [] → complete front →
    (∀ earlier later, front = earlier ++ later → earlier ≠ [] → later ≠ [] → ¬complete earlier) →
    readChunk .empty lines = (prompts true front.length, some (.text (textOf front)), back)
  goesOn : (∀ front back, lines = front ++ back → front ≠ [] → ¬complete front) →
    readChunk .empty lines = (prompts true (lines.length + 1), none, [])

variable {line : Text} {lines front back : List Text} {pending : PendingChunk}

/-- The braces of lines are those of the first line and those of the others. -/
@[simp]
theorem bracesOf_cons (line : Text) (lines : List Text) :
    bracesOf (line :: lines) = braces line + bracesOf lines := by
  simp [bracesOf]

/-- The braces of one line are its own. -/
theorem bracesOf_singleton (line : Text) : bracesOf [line] = braces line := by
  simp [bracesOf]

/-- The line ends between lines are no braces. -/
theorem braces_joinLines (lines : List Text) : braces (Text.joinLines lines) = bracesOf lines := by
  induction lines with
  | nil => rfl
  | cons line lines ih =>
    cases lines with
    | nil => rw [Text.joinLines_singleton, bracesOf_singleton]
    | cons next lines =>
      rw [Text.joinLines_cons, braces_append, bracesOf_cons line, ← ih]
      simp [braces]

/-- A session that has begun a chunk reads on up to the first line that leaves no brace open. -/
theorem readChunk_of_closed (stays : pending.lines = [] → beginsToLeave front = false)
    (filled : front ≠ []) (closed : pending.balance + bracesOf front ≤ 0)
    (isOpen : ∀ earlier later, front = earlier ++ later → earlier ≠ [] → later ≠ [] →
      0 < pending.balance + bracesOf earlier) (back : List Text) :
    readChunk pending (front ++ back) = (prompts pending.lines.isEmpty front.length,
      some (.text (textOf (pending.lines.reverse ++ front))), back) := by
  induction front generalizing pending with
  | nil => exact absurd rfl filled
  | cons line front ih =>
    have stays' : pending.lines = [] → asksToLeave line = false := stays
    rw [List.cons_append, readChunk, add_of_stays stays']
    cases front with
    | nil =>
      rw [bracesOf_singleton] at closed
      rw [if_pos closed]
      simp [prompts, prompt]
    | cons next front =>
      have first := isOpen [line] (next :: front) rfl (List.cons_ne_nil _ _) (List.cons_ne_nil _ _)
      rw [bracesOf_singleton] at first
      rw [bracesOf_cons] at closed
      rw [if_neg (by omega)]
      have behind := @ih ⟨line :: pending.lines, pending.balance + braces line⟩
        (fun none => by cases none) (List.cons_ne_nil _ _) (by dsimp only; omega)
        fun earlier later shape filled more => by
          have further := isOpen (line :: earlier) later (by rw [shape]; rfl)
            (List.cons_ne_nil _ _) more
          rw [bracesOf_cons] at further
          dsimp only
          omega
      simp only [behind]
      simp [prompts, prompt]

/-- A session reads on behind lines that each leave a brace open. -/
theorem readChunk_of_staysOpen (stays : pending.lines = [] → beginsToLeave lines = false)
    (isOpen : StaysOpen pending.balance lines) :
    readChunk pending lines = (prompts pending.lines.isEmpty (lines.length + 1), none, []) := by
  induction lines generalizing pending with
  | nil => simp [readChunk, prompts, prompt]
  | cons line lines ih =>
    have stays' : pending.lines = [] → asksToLeave line = false := stays
    have first := isOpen [line] lines rfl (List.cons_ne_nil _ _)
    rw [bracesOf_singleton] at first
    have behind := @ih ⟨line :: pending.lines, pending.balance + braces line⟩
      (fun none => by cases none)
      fun earlier later shape filled => by
        have further := isOpen (line :: earlier) later (by rw [shape]; rfl) (List.cons_ne_nil _ _)
        rw [bracesOf_cons] at further
        dsimp only
        omega
    rw [readChunk, add_of_stays stays', if_neg (by omega)]
    simp only [behind]
    simp [prompts, prompt]

/-- The characters of the lines decide how many of them are read. -/
theorem readsUntil_braces (stays : beginsToLeave lines = false) :
    ReadsUntil (fun front => bracesOf front ≤ 0) lines where
  stops := by
    rintro front back rfl filled closed isOpen
    obtain ⟨first, front, rfl⟩ := List.exists_cons_of_ne_nil filled
    have stays' : beginsToLeave (first :: front) = false := stays
    refine readChunk_of_closed (fun _ => stays') filled ((Int.zero_add _).trans_le closed)
      (fun earlier later shape filled more => ?_) back
    rw [empty, Int.zero_add]
    exact Int.not_le.mp (isOpen earlier later shape filled more)
  goesOn isOpen := by
    refine readChunk_of_staysOpen (fun _ => stays) fun front back shape filled => ?_
    rw [empty, Int.zero_add]
    exact Int.not_le.mp (isOpen front back shape filled)

/-- Two senses of completeness that agree on all first lines of some lines. -/
theorem ReadsUntil.congr {complete complete' : List Text → Prop} (reads : ReadsUntil complete lines)
    (same : ∀ front back, lines = front ++ back → front ≠ [] → (complete front ↔ complete' front)) :
    ReadsUntil complete' lines where
  stops front back shape filled isComplete isFirst := by
    refine reads.stops front back shape filled ((same _ _ shape filled).mpr isComplete)
      fun earlier later split filled more done => ?_
    have shape' : lines = earlier ++ (later ++ back) := by rw [shape, split, List.append_assoc]
    exact isFirst earlier later split filled more ((same _ _ shape' filled).mp done)
  goesOn never :=
    reads.goesOn fun front back shape filled done =>
      never front back shape filled ((same _ _ shape filled).mp done)

/-- A line that is complete by itself is read alone. -/
theorem ReadsUntil.first {complete : List Text → Prop} (reads : ReadsUntil complete (line :: lines))
    (alone : complete [line]) :
    readChunk .empty (line :: lines) = (">>> ".toList, some (.text (Text.trim line)), lines) := by
  have read := reads.stops [line] lines rfl (List.cons_ne_nil _ _) alone
    fun earlier later shape filled more => by
      rcases List.append_eq_singleton_iff.mp shape.symm with ⟨rfl, _⟩ | ⟨_, rfl⟩
      · exact absurd rfl filled
      · exact absurd rfl more
  rw [read, textOf, Text.joinLines_singleton]
  rfl

/-- Of lines that are split into tokens however many of them are taken, a session reads the first
ones whose braces, among their tokens and hidden, are closed. Where the comments and the strings open
as many braces as they close, these are the first lines with no more opening than closing braces among
their tokens. In particular the session then asks for nothing behind a line that is a program. -/
theorem readsUntil_closed (stays : beginsToLeave lines = false)
    (readable : ∀ front back, lines = front ++ back → front ≠ [] →
      ∃ all, (Source.ofLines front).tokenize.result = .ok all) :
    ReadsUntil (fun front =>
        (Source.ofLines front).openBraces + (Source.ofLines front).hiddenBraces ≤ 0) lines ∧
      ((∀ front back, lines = front ++ back → front ≠ [] →
          (Source.ofLines front).hiddenBraces = 0) →
        ReadsUntil (fun front => (Source.ofLines front).openBraces ≤ 0) lines) ∧
      ∀ line later name tree, lines = line :: later →
        (Source.ofText name line).parse = .ok tree → (Source.ofLines [line]).hiddenBraces ≤ 0 →
        readChunk .empty lines = (">>> ".toList, some (.text (Text.trim line)), later) := by
  have byTokens : ReadsUntil (fun front =>
      (Source.ofLines front).openBraces + (Source.ofLines front).hiddenBraces ≤ 0) lines := by
    refine (readsUntil_braces stays).congr fun front back shape filled => ?_
    obtain ⟨all, split⟩ := readable front back shape filled
    rw [← Source.braces_eq split, ← braces_joinLines]
    exact Iff.rfl
  refine ⟨byTokens, fun noneHidden => ?_, ?_⟩
  · refine byTokens.congr fun front back shape filled => ?_
    rw [noneHidden front back shape filled, Int.add_zero]
  · rintro line later name tree rfl parsed few
    have parsed' : (Source.ofLines [line]).parse = .ok tree := by
      rw [Source.ofLines, Text.joinLines_singleton, Source.parse_ofText name]
      exact parsed
    have closed := (Source.openBraces_of_parse parsed').2
    exact byTokens.first (by omega)

/-- A block on two lines. -/
theorem readsUntil_closed_block :
    readChunk .empty ["\x7b".toList, "1\x7d;".toList] =
      (">>> ... ".toList, some (.text "\x7b\n1\x7d;".toList), []) := by
  have first : (Source.ofLines ["\x7b".toList]).tokenize =
      ⟨[⟨.lbrace, ['\x7b'], ⟨0, 1⟩⟩, ⟨.eof, [], ⟨1, 0⟩⟩], none, 1⟩ := by cbv
  have both : (Source.ofLines ["\x7b".toList, "1\x7d;".toList]).tokenize =
      ⟨[⟨.lbrace, ['\x7b'], ⟨0, 1⟩⟩, ⟨.int, ['1'], ⟨2, 1⟩⟩, ⟨.rbrace, ['\x7d'], ⟨3, 1⟩⟩,
        ⟨.semi, [';'], ⟨4, 1⟩⟩, ⟨.eof, [], ⟨5, 0⟩⟩], none, 5⟩ := by cbv
  have fronts (front back : List Text) (shape : ["\x7b".toList, "1\x7d;".toList] = front ++ back)
      (filled : front ≠ []) :
      front = ["\x7b".toList] ∨ front = ["\x7b".toList, "1\x7d;".toList] := by
    have isFront : front ∈ List.inits ["\x7b".toList, "1\x7d;".toList] :=
      (List.mem_inits _ _).mpr ⟨back, shape.symm⟩
    simpa [List.inits, filled] using isFront
  have reads := (@readsUntil_closed ["\x7b".toList, "1\x7d;".toList] (by decide)
    fun front back shape filled => by
      rcases fronts front back shape filled with rfl | rfl
      · exact ⟨_, by rw [first]; rfl⟩
      · exact ⟨_, by rw [both]; rfl⟩).2.1 fun front back shape filled => by
      rcases fronts front back shape filled with rfl | rfl
      · rw [Source.hiddenBraces, first]
        decide
      · rw [Source.hiddenBraces, both]
        decide
  refine reads.stops _ [] (List.append_nil _).symm (List.cons_ne_nil _ _) ?_ ?_
  · rw [Source.openBraces, both]
    decide
  · intro earlier later shape filled more
    rcases fronts earlier later shape filled with rfl | rfl
    · rw [Source.openBraces, first]
      decide
    · exact absurd (List.append_cancel_left (shape.symm.trans (List.append_nil _).symm)) more

/-- A brace in a string keeps a session from answering a line that is a program. -/
theorem prompt_behind_string :
    beginsToLeave ["\"\x7b\";".toList] = false ∧
      (∃ tree, (Source.ofLines ["\"\x7b\";".toList]).parse = .ok tree) ∧
      (Source.ofLines ["\"\x7b\";".toList]).openBraces = 0 ∧
      readChunk .empty ["\"\x7b\";".toList] = (">>> ... ".toList, none, []) ∧
      ¬ReadsUntil (fun front => (Source.ofLines front).openBraces ≤ 0) ["\"\x7b\";".toList] := by
  have parsed : (Source.ofLines ["\"\x7b\";".toList]).parse = .ok (.module ⟨0, 4⟩
      [.exprStmt ⟨0, 4⟩ (.string ⟨0, 3⟩ ['\x7b'])]) := by cbv
  have closed := (Source.openBraces_of_parse parsed).2
  have goesOn : readChunk .empty ["\"\x7b\";".toList] = (">>> ... ".toList, none, []) := by
    decide +kernel
  refine ⟨by decide, ⟨_, parsed⟩, closed, goesOn, fun reads => ?_⟩
  have stops := reads.first closed.le
  rw [goesOn] at stops
  cases stops

end PendingChunk

end SinosLang
