import SinosLang.Disk
import SinosLang.Proofs.Text.Parts
import Mathlib.Data.List.Infix

/-!
# What was written is read

A file that a text was put into is read by the path that it was opened by, and the text comes back
with its line ends made uniform. Putting a text into a file makes no file of a directory and no
directory of a file, so every other path that could be opened for writing still can be, and leads to
the same place.

Main statements: `target_put` and `read_put`.
-/

set_option autoImplicit false

namespace SinosLang

namespace Folder

variable {folder : Folder} {place other start found : List Text} {text path name : Text}
  {way later : List Text}

/-! ## Directories -/

/-- The places that are directories: those above the working directory, the root, those of the
system, those known to be directories and those above a file. -/
theorem isDirectory_iff : folder.isDirectory place = true ↔
    place.all isUp = true ∨ place = root ∨ place ∈ systemDirectories ∨
      (∃ directory ∈ folder.directories, place <+: directory) ∨
      ∃ file ∈ folder.entries, place <+: file.1 ∧ file.1 ≠ place := by
  simp only [isDirectory, Bool.or_eq_true, List.any_eq_true, Bool.and_eq_true, bne_iff_ne, beq_iff_eq,
    List.contains_iff_mem, List.isPrefixOf_iff_prefix, or_assoc]

/-- Putting a text into a file makes no directory. -/
@[simp]
theorem directories_put : (folder.put place text).directories = folder.directories := by
  unfold put
  split <;> rfl

/-- The files after a text was put into one of them are that file and the others of before. -/
theorem mem_entries_put {file : List Text × Contents} :
    file ∈ (folder.put place text).entries ↔
      file = (place, .text text) ∨ file ∈ folder.entries ∧ file.1 ≠ place := by
  unfold put entries
  split <;> simp [without, or_and_right, or_left_comm]

/-- The directories above a file that a text was put into are the only ones that there may be more
than before. -/
theorem isDirectory_put : (folder.put place text).isDirectory other = true ↔
    folder.isDirectory other = true ∨ other <+: place ∧ place ≠ other := by
  rw [isDirectory_iff, isDirectory_iff, directories_put]
  constructor
  · rintro (isUp | isRoot | isSystem | isKnown | ⟨file, isFile, isAbove⟩)
    · exact .inl (.inl isUp)
    · exact .inl (.inr (.inl isRoot))
    · exact .inl (.inr (.inr (.inl isSystem)))
    · exact .inl (.inr (.inr (.inr (.inl isKnown))))
    · rcases mem_entries_put.mp isFile with rfl | ⟨isOld, _⟩
      · exact .inr isAbove
      · exact .inl (.inr (.inr (.inr (.inr ⟨file, isOld, isAbove⟩))))
  · rintro ((isUp | isRoot | isSystem | isKnown | ⟨file, isFile, isAbove⟩) | isAbove)
    · exact .inl isUp
    · exact .inr (.inl isRoot)
    · exact .inr (.inr (.inl isSystem))
    · exact .inr (.inr (.inr (.inl isKnown)))
    · refine .inr (.inr (.inr (.inr ?_)))
      by_cases isPlace : file.1 = place
      · exact ⟨(place, .text text), mem_entries_put.mpr (.inl rfl), isPlace ▸ isAbove⟩
      · exact ⟨file, mem_entries_put.mpr (.inr ⟨isFile, isPlace⟩), isAbove⟩
    · exact .inr (.inr (.inr (.inr ⟨_, mem_entries_put.mpr (.inl rfl), isAbove⟩)))

/-! ## Places that a path leads to -/

/-- All places on the way to a place are directories. -/
def Grounded (folder : Folder) (place : List Text) : Prop :=
  ∀ front, front <+: place → front ≠ place → folder.isDirectory front = true

/-- The places above the working directory are directories. -/
theorem isDirectory_of_isUp (isUp : place.all Folder.isUp = true) :
    folder.isDirectory place = true :=
  isDirectory_iff.mpr (.inl isUp)

/-- Where a path starts is a directory, and so are the places on the way there. -/
theorem origin_grounded (folder : Folder) (path : Text) :
    folder.isDirectory (origin path) = true ∧ folder.Grounded (origin path) := by
  unfold origin
  split
  · refine ⟨isDirectory_iff.mpr (.inr (.inl rfl)), fun front isFront other => ?_⟩
    cases front with
    | nil => exact isDirectory_of_isUp rfl
    | cons first front =>
      obtain ⟨rfl, behind⟩ := List.cons_prefix_cons.mp isFront
      rw [List.prefix_nil.mp behind] at other
      exact absurd rfl other
  · refine ⟨isDirectory_of_isUp rfl, fun front isFront other => ?_⟩
    exact absurd (List.prefix_nil.mp isFront) other

/-- One name leads from a directory to a place on whose way are directories only. -/
theorem Grounded.step (grounded : folder.Grounded place)
    (isDirectory : folder.isDirectory place = true) (name : Text) :
    folder.Grounded (Folder.step place name) := by
  have below (next : Text) : folder.Grounded (place ++ [next]) := by
    intro front isFront isStrict
    rcases List.prefix_concat_iff.mp isFront with same | within
    · exact absurd same isStrict
    · by_cases isPlace : front = place
      · exact isPlace ▸ isDirectory
      · exact grounded front within isPlace
  unfold Folder.step above
  split
  · exact grounded
  · split
    · split
      · next isRoot => exact (eq_of_beq isRoot) ▸ grounded
      · split
        · exact below _
        · intro front isFront _
          have within : front <+: place := isFront.trans (List.dropLast_prefix place)
          by_cases isPlace : front = place
          · exact isPlace ▸ isDirectory
          · exact grounded front within isPlace
    · exact below _

/-- What a path may pass through is a directory and no file, and not the null device. -/
theorem barrier?_eq_none (passes : folder.barrier? place = none) :
    folder.isDirectory place = true ∧ folder.file? place = none ∧ place ≠ nullDevice := by
  unfold barrier? at passes
  split at passes
  · cases passes
  next free =>
    simp only [Bool.or_eq_true, not_or, Option.isSome_iff_ne_none, not_not, beq_iff_eq] at free
    split at passes
    next isDirectory => exact ⟨isDirectory, free⟩
    next => cases passes

/-- A path may pass through a directory that is neither a file nor the null device. -/
theorem barrier?_of_isDirectory (isDirectory : folder.isDirectory place = true)
    (noFile : folder.file? place = none) (notNull : place ≠ nullDevice) :
    folder.barrier? place = none := by
  simp [barrier?, isDirectory, noFile, notNull]

/-- A last name is followed if it is short enough, whatever is there. -/
theorem follow_singleton : folder.follow start [name] = .ok found ↔
    byteCount name ≤ 255 ∧ step start name = found := by
  by_cases long : 255 < byteCount name
  · simp [follow, long, Nat.not_le.mpr long]
  · simp [follow, long, Nat.le_of_not_lt long]

/-- A name that another one follows leads to a directory. -/
theorem follow_cons (behind : later ≠ []) : folder.follow start (name :: later) = .ok found ↔
    byteCount name ≤ 255 ∧ folder.barrier? (step start name) = none ∧
      folder.follow (step start name) later = .ok found := by
  obtain ⟨next, later, rfl⟩ := List.exists_cons_of_ne_nil behind
  by_cases long : 255 < byteCount name
  · simp [follow, long, Nat.not_le.mpr long]
  · cases passes : folder.barrier? (step start name) with
    | some fault => simp [follow, passes, long]
    | none => simp [follow, passes, long, Nat.le_of_not_lt long]

/-- The last name leads to the place. -/
theorem exists_step_of_follow (follows : folder.follow start (way ++ [name]) = .ok found) :
    ∃ above, step above name = found := by
  induction way generalizing start with
  | nil => exact ⟨start, (follow_singleton.mp follows).2⟩
  | cons first way ih => exact ih ((follow_cons (by simp)).mp follows).2.2

/-- A way that can be followed leads to a place with directories only on the way to it. -/
theorem follow_grounded (follows : folder.follow start way = .ok found)
    (isDirectory : folder.isDirectory start = true) (grounded : folder.Grounded start) :
    folder.Grounded found := by
  induction way generalizing start with
  | nil =>
    cases follows
    exact grounded
  | cons name later ih =>
    have stepped := grounded.step isDirectory name
    by_cases last : later = []
    · subst last
      exact (follow_singleton.mp follows).2 ▸ stepped
    · obtain ⟨_, passes, behind⟩ := (follow_cons last).mp follows
      exact ih behind (barrier?_eq_none passes).1 stepped

/-- No directory becomes a file by putting a text into a file. -/
theorem barrier?_put (isFile : folder.isDirectory place = false)
    (passes : folder.barrier? other = none) : (folder.put place text).barrier? other = none := by
  obtain ⟨isDirectory, noFile, notNull⟩ := barrier?_eq_none passes
  have apart : other ≠ place := by
    rintro rfl
    rw [isFile] at isDirectory
    cases isDirectory
  rw [← file?_put_of_ne folder text apart] at noFile
  exact barrier?_of_isDirectory (isDirectory_put.mpr (.inl isDirectory)) noFile notNull

/-- A way that could be followed can still be followed after a text was put into a file. -/
theorem follow_put (isFile : folder.isDirectory place = false)
    (follows : folder.follow start way = .ok found) :
    (folder.put place text).follow start way = .ok found := by
  induction way generalizing start with
  | nil => exact follows
  | cons name later ih =>
    by_cases last : later = []
    · subst last
      exact follow_singleton.mpr (follow_singleton.mp follows)
    · obtain ⟨short, passes, behind⟩ := (follow_cons last).mp follows
      exact (follow_cons last).mpr ⟨short, barrier?_put isFile passes, ih behind⟩

/-! ## Paths that can be opened for writing -/

/-- A path can be followed if it has no null character, is neither empty nor too long, and its names
lead somewhere one after the other. -/
theorem locate_eq_ok_iff : folder.locate path way = .ok place ↔
    path.contains '\x00' = false ∧ path ≠ [] ∧ byteCount path ≤ 4095 ∧
      folder.follow (origin path) way = .ok place := by
  unfold locate
  cases path.contains '\x00' with
  | true => simp
  | false =>
    by_cases filled : path = []
    · simp [filled]
    · by_cases long : 4095 < byteCount path
      · simp [filled, long, Nat.not_le.mpr long]
      · simp [filled, long, Nat.le_of_not_lt long]

/-- The names of a path that does not end in a slash end in one that is not empty. -/
theorem names_of_ends (filled : path ≠ []) (ends : path.getLast? ≠ some '/') :
    ∃ earlier last c, names path = earlier ++ [last ++ [c]] := by
  obtain ⟨front, c, rfl⟩ := (List.eq_nil_or_concat' path).resolve_left filled
  rw [List.getLast?_concat] at ends
  have uncut : ∀ next ∈ [c], (next == '/') = false := by simpa using ends
  obtain ⟨earlier, last, _, shape⟩ := Text.splitWhere_append uncut front
  exact ⟨earlier, last, c, shape⟩

/-- A path is opened for writing at the place that its names lead to, if it does not end in a slash
and no directory is there. -/
theorem target_eq_ok_iff : folder.target path = .ok place ↔
    folder.locate path (names path) = .ok place ∧ path.getLast? ≠ some '/' ∧
      folder.isDirectory place = false := by
  by_cases filled : path = []
  · subst filled
    simp [target, locate]
  · by_cases ends : path.getLast? = some '/'
    · unfold target
      dsimp only
      split <;> simp [ends]
    · obtain ⟨earlier, last, c, shape⟩ := names_of_ends filled ends
      have proper : ((names path).reverse.dropWhile List.isEmpty).reverse = names path := by
        simp [shape]
      unfold target
      dsimp only
      rw [proper]
      cases folder.locate path (names path) with
      | error fault => simp
      | ok found =>
        dsimp only
        rw [beq_false_of_ne ends, Bool.false_or, Except.ok.injEq]
        cases isDirectory : folder.isDirectory found with
        | true =>
          rw [if_pos rfl]
          constructor
          · intro opened
            cases opened
          · rintro ⟨rfl, _, isFile⟩
            rw [isDirectory] at isFile
            cases isFile
        | false =>
          rw [if_neg Bool.false_ne_true, Except.ok.injEq]
          refine ⟨?_, fun opened => opened.1⟩
          rintro rfl
          exact ⟨rfl, ends, isDirectory⟩

/-- A path that can be opened for writing still can be when a text has been put into a file, and it
leads to the same place. -/
theorem target_put (opened : folder.target path = .ok place) {goal : Text}
    (goalOpened : folder.target goal = .ok other) :
    (folder.put place text).target goal = .ok other := by
  obtain ⟨located, _, isFile⟩ := target_eq_ok_iff.mp opened
  obtain ⟨goalLocated, ends, goalIsFile⟩ := target_eq_ok_iff.mp goalOpened
  obtain ⟨noNull, filled, short, follows⟩ := locate_eq_ok_iff.mp goalLocated
  refine target_eq_ok_iff.mpr ⟨?_, ends, ?_⟩
  · exact locate_eq_ok_iff.mpr ⟨noNull, filled, short, follow_put isFile follows⟩
  · rw [Bool.eq_false_iff]
    intro isDirectory
    rcases isDirectory_put.mp isDirectory with before | ⟨isAbove, isStrict⟩
    · rw [goalIsFile] at before
      cases before
    -- what lies above the file has been a directory all along
    · obtain ⟨_, _, _, placeFollows⟩ := locate_eq_ok_iff.mp located
      have started := folder.origin_grounded path
      have grounded := follow_grounded placeFollows started.1 started.2
      have before := grounded other isAbove isStrict.symm
      rw [goalIsFile] at before
      cases before

/-- What was put into a file is read by the path that the file was opened by. -/
theorem read_put (opened : folder.target path = .ok place) :
    (folder.put place text).read path = .ok (Text.unifyNewlines text) := by
  have again : (folder.put place text).target path = .ok place := target_put opened opened
  have located := (target_eq_ok_iff.mp again).1
  unfold read
  rw [located]
  dsimp only
  rw [file?_put_self]

/-- A source file is not the null device. -/
theorem ne_nullDevice_of_suffix {ending : Text} (isSuffix : ending <:+ path)
    (noSlash : '/' ∉ ending) (long : 4 < ending.length)
    (opened : folder.target path = .ok place) : place ≠ nullDevice := by
  obtain ⟨front, rfl⟩ := isSuffix
  obtain ⟨located, _, _⟩ := target_eq_ok_iff.mp opened
  obtain ⟨_, _, _, follows⟩ := locate_eq_ok_iff.mp located
  have uncut : ∀ c ∈ ending, (c == '/') = false := by
    intro c isIn
    exact beq_false_of_ne fun isSlash => noSlash (isSlash ▸ isIn)
  obtain ⟨earlier, last, _, shape⟩ := Text.splitWhere_append uncut front
  rw [show names (front ++ ending) = earlier ++ [last ++ ending] from shape] at follows
  obtain ⟨above, rfl⟩ := exists_step_of_follow follows
  have size : 4 < (last ++ ending).length := by
    rw [List.length_append]
    omega
  have isName : (last ++ ending).isEmpty = false ∧ last ++ ending ≠ ['.'] ∧
      last ++ ending ≠ ['.', '.'] ∧ last ++ ending ≠ "null".toList := by
    refine ⟨?_, ?_, ?_, ?_⟩
    · rw [List.isEmpty_eq_false_iff]
      exact fun same => by simp [same] at size
    all_goals exact fun same => by simp [same] at size
  have stepped : step above (last ++ ending) = above ++ [last ++ ending] := by
    simp [step, isUp, isName]
  rw [stepped]
  intro same
  have lastName := congrArg List.getLast? same
  rw [List.getLast?_concat] at lastName
  exact isName.2.2.2 (Option.some.inj lastName)

end Folder

end SinosLang
