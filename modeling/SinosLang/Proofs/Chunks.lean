import SinosLang.Proofs.Sessions

/-!
# The lines of a chunk

A chunk goes on as long as a brace is open in its lines, and the wish to leave is only heard where a
chunk would begin. So the lines that are typed fall into chunks, one after the other, and what is
left over: a line that asks to leave with all that comes behind it, or a chunk that is not complete
when the lines end.

Main statements: `readChunk_cases` for one chunk and `ofLines_groups` for all of them.
-/

set_option autoImplicit false

namespace SinosLang

namespace PendingChunk

/-- How many more braces some lines open than they close. -/
def bracesOf (lines : List Text) : Int :=
  (lines.map braces).sum

/-- Behind lines with a balance come lines after each of which a brace is open. -/
def StaysOpen (balance : Int) (lines : List Text) : Prop :=
  ∀ front back, lines = front ++ back → front ≠ [] → 0 < balance + bracesOf front

/-- Behind lines with a balance come lines of which the last one, and no earlier one, leaves no brace
open. -/
structure Closes (balance : Int) (lines : List Text) : Prop where
  filled : lines ≠ []
  staysOpen : StaysOpen balance lines.dropLast
  closed : balance + bracesOf lines ≤ 0

/-- Whether some lines begin with the wish to leave. -/
def beginsToLeave (lines : List Text) : Bool :=
  lines.head?.any asksToLeave

/-- The text of a chunk with the given lines. -/
def textOf (lines : List Text) : Text :=
  Text.trim (Text.joinLines lines)

variable {balance : Int} {line : Text} {lines later : List Text} {pending : PendingChunk}

/-- No lines at all stay open, as there is none that could close the chunk. -/
theorem staysOpen_nil : StaysOpen balance [] := by
  intro front back shape filled
  exact absurd (List.append_eq_nil_iff.mp shape.symm).1 filled

/-- Lines stay open if the first leaves a brace open and the later ones stay open from there. -/
theorem staysOpen_cons (isOpen : 0 < balance + braces line)
    (behind : StaysOpen (balance + braces line) later) : StaysOpen balance (line :: later) := by
  intro front back shape filled
  obtain ⟨first, front, rfl⟩ := List.exists_cons_of_ne_nil filled
  obtain ⟨rfl, rfl⟩ := List.cons_eq_cons.mp shape
  cases front with
  | nil => simpa [bracesOf] using isOpen
  | cons next front =>
    have goesOn := behind (next :: front) back rfl (List.cons_ne_nil _ _)
    simp only [bracesOf, List.map_cons, List.sum_cons] at goesOn ⊢
    omega

/-- A single line closes a chunk if no brace is left open behind it. -/
theorem closes_singleton (isClosed : balance + braces line ≤ 0) : Closes balance [line] where
  filled := List.cons_ne_nil _ _
  staysOpen := staysOpen_nil
  closed := by simpa [bracesOf] using isClosed

/-- A line that leaves a brace open goes in front of lines that close what it leaves open. -/
theorem Closes.cons (isOpen : 0 < balance + braces line)
    (behind : Closes (balance + braces line) later) : Closes balance (line :: later) where
  filled := List.cons_ne_nil _ _
  staysOpen := by
    rw [List.dropLast_cons_of_ne_nil behind.filled]
    exact staysOpen_cons isOpen behind.staysOpen
  closed := by
    have closed := behind.closed
    simp only [bracesOf, List.map_cons, List.sum_cons] at closed ⊢
    omega

/-- A line that does not ask to leave makes a chunk complete or is one more of its lines. -/
theorem add_of_stays (stays : pending.lines = [] → asksToLeave line = false) :
    pending.add line =
      if pending.balance + braces line ≤ 0 then
        .complete (.text (textOf (pending.lines.reverse ++ [line])))
      else .more ⟨line :: pending.lines, pending.balance + braces line⟩ := by
  have noLeave : (asksToLeave line && pending.lines.isEmpty) = false := by
    cases started : pending.lines with
    | nil => rw [stays started, Bool.false_and]
    | cons => rw [List.isEmpty_cons, Bool.and_false]
  rw [add, noLeave, if_neg Bool.false_ne_true, ← List.reverse_cons]
  rfl

/-- Some lines complete a chunk, or ask to leave where one would begin, or end before it is
complete. -/
theorem readChunk_cases (pending : PendingChunk) (lines : List Text) :
    (∃ taken rest, lines = taken ++ rest ∧ Closes pending.balance taken ∧
      (pending.lines = [] → beginsToLeave taken = false) ∧
      (readChunk pending lines).2 =
        (some (.text (textOf (pending.lines.reverse ++ taken))), rest)) ∨
    (∃ line later, lines = line :: later ∧ pending.lines = [] ∧ asksToLeave line = true ∧
      (readChunk pending lines).2 = (some .leave, later)) ∨
    (StaysOpen pending.balance lines ∧ (pending.lines = [] → beginsToLeave lines = false) ∧
      (readChunk pending lines).2 = (none, [])) := by
  induction lines generalizing pending with
  | nil => exact .inr (.inr ⟨staysOpen_nil, fun _ => rfl, rfl⟩)
  | cons line later ih =>
    rw [readChunk]
    by_cases leaves : pending.lines = [] ∧ asksToLeave line = true
    · have added : pending.add line = .complete .leave := by
        rw [add, leaves.2, leaves.1]
        rfl
      rw [added]
      exact .inr (.inl ⟨line, later, rfl, leaves.1, leaves.2, rfl⟩)
    · have stays (empty : pending.lines = []) : asksToLeave line = false :=
        Bool.eq_false_iff.mpr fun asks => leaves ⟨empty, asks⟩
      rw [add_of_stays stays]
      by_cases closed : pending.balance + braces line ≤ 0
      · rw [if_pos closed]
        exact .inl ⟨[line], later, rfl, closes_singleton closed, stays, rfl⟩
      · rw [if_neg closed]
        have isOpen : 0 < pending.balance + braces line := by omega
        -- behind this line the chunk has begun, so no line asks to leave
        rcases ih ⟨line :: pending.lines, pending.balance + braces line⟩ with
          ⟨taken, rest, rfl, closes, _, read⟩ | ⟨_, _, _, begun, _⟩ | ⟨behind, _, read⟩
        · refine .inl ⟨line :: taken, rest, rfl, closes.cons isOpen, stays, ?_⟩
          simpa using read
        · cases begun
        · exact .inr (.inr ⟨staysOpen_cons isOpen behind, stays, read⟩)

end PendingChunk

namespace Dialogue

open PendingChunk

/-- The lines that are typed fall into those of the chunks and what is left over: lines that begin
with the wish to leave, or lines that never leave all braces closed. -/
theorem ofLines_groups (lines : List Text) :
    ∃ (groups : List (List Text)) (rest : List Text), lines = groups.flatten ++ rest ∧
      (∀ group ∈ groups, Closes 0 group ∧ beginsToLeave group = false) ∧
      (ofLines lines).chunks.map Prod.snd = groups.map textOf ∧
      ((ofLines lines).leaves = true ∧ beginsToLeave rest = true ∨
        (ofLines lines).leaves = false ∧ StaysOpen 0 rest ∧ beginsToLeave rest = false) := by
  fun_induction ofLines lines with
  | case1 lines prompts rest read =>
    rcases readChunk_cases .empty lines with
      ⟨_, _, _, _, _, found⟩ | ⟨_, _, _, _, _, found⟩ | ⟨isOpen, stays, found⟩
    · rw [read] at found
      cases found
    · rw [read] at found
      cases found
    · exact ⟨[], lines, rfl, by simp, rfl, .inr ⟨rfl, isOpen, stays rfl⟩⟩
  | case2 lines prompts rest read =>
    rcases readChunk_cases .empty lines with
      ⟨_, _, _, _, _, found⟩ | ⟨line, later, rfl, _, asks, found⟩ | ⟨_, _, found⟩
    · rw [read] at found
      cases found
    · exact ⟨[], line :: later, rfl, by simp, rfl, .inl ⟨rfl, asks⟩⟩
    · rw [read] at found
      cases found
  | case3 lines prompts chunk rest read later ih =>
    obtain ⟨groups, left, rest_eq, areChunks, texts, ends⟩ := ih
    rcases readChunk_cases .empty lines with
      ⟨taken, rest', rfl, closes, stays, found⟩ | ⟨_, _, _, _, _, found⟩ | ⟨_, _, found⟩
    · rw [read] at found
      cases found
      refine ⟨taken :: groups, left, ?_, ?_, ?_, ends⟩
      · rw [List.flatten_cons, List.append_assoc, ← rest_eq]
      · exact List.forall_mem_cons.mpr ⟨⟨closes, stays rfl⟩, areChunks⟩
      · rw [List.map_cons, List.map_cons, texts]
        rfl
    · rw [read] at found
      cases found
    · rw [read] at found
      cases found

end Dialogue

end SinosLang
