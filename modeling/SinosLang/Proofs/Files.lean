import SinosLang.Proofs.Folders
import SinosLang.Proofs.Requests

/-!
# All or nothing

A run checks what it is asked for before it reads, and it has rendered all before it opens the file
that the output goes to. So a run that does not succeed leaves every file as it was and prints
nothing on the first output, and one that succeeds prints the whole text or changes the one file that
it was asked to write, which then holds the whole text. The accesses to files are watched by a disk
that takes them down.

Main statements: `run_course` for the ways a run may go and `run_all_or_nothing` for what is promised
of all of them.
-/

set_option autoImplicit false

namespace SinosLang

/-- One access to a file: it is read, or a text is written to it. -/
inductive Access where
  | read (path : Text)
  | write (path text : Text)
deriving DecidableEq

/-- A folder with the accesses to its files so far, in order. -/
structure WatchedFolder where
  folder : Folder
  accesses : List Access

namespace WatchedFolder

/-- One more access, with the folder that it leaves. -/
def note (watched : WatchedFolder) (access : Access) (after : Folder) : WatchedFolder where
  folder := after
  accesses := watched.accesses ++ [access]

/-- The disk that a watched folder is: that of the folder, with every access noted. -/
def disk : Disk (StateM WatchedFolder) where
  read path := fun watched =>
    (watched.folder.read path, watched.note (.read path) watched.folder)
  write path text := fun watched =>
    match watched.folder.write path text with
    | .ok after => (.ok (), watched.note (.write path text) after)
    | .error error => (.error error, watched.note (.write path text) watched.folder)

/-- What a run answers and the folder that it leaves, without the accesses. -/
def unwatched {α : Type} (result : α × WatchedFolder) : α × Folder :=
  (result.1, result.2.folder)

end WatchedFolder

namespace Folder

/-- A folder after a text has been written to a path: the file there holds the text, and all else is
as it was. The null device keeps nothing. -/
structure Written (before after : Folder) (path text : Text) : Prop where
  holds : ∃ place, before.target path = .ok place ∧
    after.file? place = (if place = nullDevice then before.file? place else some (.text text)) ∧
    ∀ other, other ≠ place → after.file? other = before.file? other
  directories : after.directories = before.directories

/-- A write that succeeds does what the specification of a written file says. -/
theorem written_of_write {before after : Folder} {path text : Text}
    (wrote : before.write path text = .ok after) : before.Written after path text := by
  unfold write at wrote
  cases opened : before.target path with
  | error fault =>
    rw [opened] at wrote
    cases wrote
  | ok place =>
    rw [opened] at wrote
    cases wrote
    by_cases isNull : place = nullDevice
    · have kept : before.file? place =
          if place = nullDevice then before.file? place else some (.text text) := by
        rw [if_pos isNull]
      rw [if_pos (beq_iff_eq.mpr isNull)]
      exact ⟨⟨place, opened, kept, fun _ _ => rfl⟩, rfl⟩
    · rw [if_neg (fun swallowed => isNull (eq_of_beq swallowed))]
      refine ⟨⟨place, opened, ?_, ?_⟩, directories_put⟩
      · rw [if_neg isNull, file?_put_self]
      · intro other different
        exact file?_put_of_ne before text different

end Folder

namespace Request

variable {request : Request} {before after : Folder} {format : OutputFormat} {source : Source}
  {text path : Text} {failure : Failure}

/-- A request is valid for a format: a file has the ending of source files, and the format goes by
the name that is asked for. -/
def IsValid (request : Request) (format : OutputFormat) : Prop :=
  (request.isText = true ∨ sourceSuffix <:+ request.input) ∧ request.format = format.name

/-- The source that is asked for, with the files of a folder. -/
def sourceIn (request : Request) (folder : Folder) : Except FileError Source :=
  if request.isText then
    .ok (Source.ofText textSourceName request.input)
  else
    (folder.read request.input).map (Source.ofText request.input)

/-- The file that the output goes to, if it goes to one. -/
def destination? (request : Request) : Option Text :=
  match request.out? with
  | none | some [] => none
  | some path => some path

/-- The access by which the source is read, if it is in a file. -/
def reading (request : Request) : List Access :=
  if request.isText then [] else [.read request.input]

/-- A request is valid for one format at most. -/
theorem IsValid.unique {other : OutputFormat} (valid : request.IsValid format)
    (validToo : request.IsValid other) : format = other :=
  OutputFormat.name_injective (valid.2.symm.trans validToo.2)

/-- A request is refused for its file or for its format, in this order, or it is valid. -/
theorem check_cases (request : Request) :
    (request.isText = false ∧ ¬ sourceSuffix <:+ request.input ∧
      request.check = .error .unsupportedFile) ∨
    (request.format ∉ OutputFormat.names ∧
      request.check = .error (.unknownFormat request.format)) ∨
    ∃ format, request.IsValid format ∧ request.check = .ok format := by
  unfold check
  by_cases fits : request.isText = true ∨ sourceSuffix <:+ request.input
  · have passes : ¬ (!request.isText && !sourceSuffix.isSuffixOf request.input) = true := by
      rcases fits with isText | isSource
      · simp [isText]
      · simp [List.isSuffixOf_iff_suffix.mpr isSource]
    rw [if_neg passes]
    rcases OutputFormat.ofName?_cases request.format with ⟨format, same, found⟩ | ⟨isUnknown, found⟩
    · rw [found]
      exact .inr (.inr ⟨format, ⟨fits, same⟩, rfl⟩)
    · rw [found]
      exact .inr (.inl ⟨isUnknown, rfl⟩)
  · obtain ⟨noText, noSource⟩ := not_or.mp fits
    have isOther : sourceSuffix.isSuffixOf request.input = false :=
      Bool.eq_false_iff.mpr fun isSuffix => noSource (List.isSuffixOf_iff_suffix.mp isSuffix)
    have noText' := Bool.eq_false_iff.mpr noText
    rw [isOther, noText']
    exact .inl ⟨rfl, noSource, rfl⟩

/-- The check passes, and gives a format, exactly when the request is valid for that format. -/
theorem check_eq_ok_iff : request.check = .ok format ↔ request.IsValid format := by
  rcases request.check_cases with
    ⟨noText, noSource, refused⟩ | ⟨isUnknown, refused⟩ | ⟨known, valid, passes⟩
  · rw [refused]
    simp [IsValid, noText, noSource]
  · rw [refused]
    simp only [reduceCtorEq, false_iff]
    intro valid
    exact isUnknown (valid.2 ▸ format.name_mem_names)
  · rw [passes, Except.ok.injEq]
    constructor
    · rintro rfl
      exact valid
    · exact valid.unique

/-! ## The steps of a run -/

/-- Reading the source notes the access to its file, if it is in one, and leaves the folder
alone. -/
theorem source_watched (request : Request) (watched : WatchedFolder) :
    request.source WatchedFolder.disk watched =
      ((request.sourceIn watched.folder).mapError .file,
        ⟨watched.folder, watched.accesses ++ request.reading⟩) := by
  unfold source sourceIn reading
  cases request.isText with
  | true => simp [Except.mapError, pure, StateT.pure]
  | false =>
    simp only [Bool.false_eq_true, if_false, bind, StateT.bind, WatchedFolder.disk]
    cases watched.folder.read request.input <;> rfl

/-- Watching the folder does not change what is read from it. -/
theorem source_unwatched (request : Request) (watched : WatchedFolder) :
    request.source Folder.disk watched.folder =
      WatchedFolder.unwatched (request.source WatchedFolder.disk watched) := by
  unfold source
  cases request.isText with
  | true => rfl
  | false =>
    simp only [Bool.false_eq_true, if_false, bind, StateT.bind, WatchedFolder.disk, Folder.disk]
    cases watched.folder.read request.input <;> rfl

/-- With a file to go to, the text is written there and nothing is printed. -/
theorem deliver_written (isFile : request.destination? = some path) (text : Text)
    (watched : WatchedFolder) :
    request.deliver WatchedFolder.disk text watched =
      match watched.folder.write path (text ++ ['\n']) with
      | .ok after => (.ok ⟨[], [], 0⟩, watched.note (.write path (text ++ ['\n'])) after)
      | .error error => (.error (.file error),
        watched.note (.write path (text ++ ['\n'])) watched.folder) := by
  obtain ⟨wanted, filled⟩ : request.out? = some path ∧ path ≠ [] := by
    unfold destination? at isFile
    split at isFile <;> cases isFile
    next filled wanted => exact ⟨wanted, filled⟩
  obtain ⟨first, rest, rfl⟩ := List.exists_cons_of_ne_nil filled
  unfold deliver
  simp only [wanted, bind, StateT.bind, WatchedFolder.disk]
  cases watched.folder.write (first :: rest) (text ++ ['\n']) <;> rfl

/-- Watching the folder does not change what is delivered. -/
theorem deliver_unwatched (request : Request) (text : Text) (watched : WatchedFolder) :
    request.deliver Folder.disk text watched.folder =
      WatchedFolder.unwatched (request.deliver WatchedFolder.disk text watched) := by
  unfold deliver
  cases request.out? with
  | none => rfl
  | some path =>
    cases path with
    | nil => rfl
    | cons first rest =>
      simp only [bind, StateT.bind, WatchedFolder.disk, Folder.disk]
      cases watched.folder.write (first :: rest) (text ++ ['\n']) <;> rfl

/-- Watching a folder changes nothing in what is answered and what the files hold. -/
theorem run_unwatched (request : Request) (watched : WatchedFolder) :
    request.run Folder.disk watched.folder =
      WatchedFolder.unwatched (request.run WatchedFolder.disk watched) := by
  unfold run
  cases request.check with
  | error error => rfl
  | ok format =>
    simp only [bind, StateT.bind, source_unwatched]
    obtain ⟨outcome, later⟩ := request.source WatchedFolder.disk watched
    cases outcome with
    | error error => rfl
    | ok source =>
      dsimp only [WatchedFolder.unwatched]
      cases if request.tokens then source.tokenListing else source.rendering format with
      | ok text => exact deliver_unwatched request text later
      | error failure => cases failure <;> rfl

/-! ## The ways a run may go -/

/-- The ways a run may go in a folder: what it answers, the folder that it leaves and the accesses to
files. -/
inductive Course (request : Request) (before : Folder) :
    Except RequestError Report → Folder → List Access → Prop
  | refused {error : RequestError} : request.check = .error error →
    Course request before (.error error) before []
  | unreadable {format : OutputFormat} {error : FileError} : request.IsValid format →
    request.sourceIn before = .error error →
    Course request before (.error (.file error)) before request.reading
  | rejected {format : OutputFormat} {source : Source} {d : Diagnostic} : request.IsValid format →
    request.sourceIn before = .ok source → request.Rejects source (.diagnostic d) →
    Course request before (.ok ⟨[], diagnosticReport source d, 1⟩) before request.reading
  | printed {format : OutputFormat} {source : Source} {text : Text} : request.IsValid format →
    request.sourceIn before = .ok source → request.view format source = .ok text →
    request.destination? = none →
    Course request before (.ok ⟨text ++ ['\n'], [], 0⟩) before request.reading
  | unwritable {format : OutputFormat} {source : Source} {text path : Text} {error : FileError} :
    request.IsValid format → request.sourceIn before = .ok source →
    request.view format source = .ok text → request.destination? = some path →
    before.write path (text ++ ['\n']) = .error error →
    Course request before (.error (.file error)) before
      (request.reading ++ [.write path (text ++ ['\n'])])
  | written {format : OutputFormat} {source : Source} {text path : Text} {after : Folder} :
    request.IsValid format → request.sourceIn before = .ok source →
    request.view format source = .ok text → request.destination? = some path →
    before.write path (text ++ ['\n']) = .ok after →
    Course request before (.ok ⟨[], [], 0⟩) after
      (request.reading ++ [.write path (text ++ ['\n'])])

/-- A run whose source can be read delivers what there is to show, or reports a diagnostic. -/
theorem run_of_sourceIn (valid : request.IsValid format)
    (found : request.sourceIn before = .ok source) :
    request.run WatchedFolder.disk ⟨before, []⟩ =
      (match request.view format source with
      | .ok text => request.deliver WatchedFolder.disk text
      | .error (.diagnostic d) => pure (.ok ⟨[], diagnosticReport source d, 1⟩)
      | .error failure => pure (.error (.failure failure))) ⟨before, request.reading⟩ := by
  unfold run
  rw [check_eq_ok_iff.mpr valid]
  simp only [bind, StateT.bind, source_watched, List.nil_append, found]
  rfl

/-- A valid request comes with the text that there is to show for it. -/
def Shows (request : Request) (before : Folder) (text : Text) : Prop :=
  ∃ format source, request.IsValid format ∧ request.sourceIn before = .ok source ∧
    request.view format source = .ok text

namespace Course

variable {outcome : Except RequestError Report} {accesses : List Access} {report : Report}

/-- A run that ends with a report has one of two exit statuses, zero and one. -/
theorem status (course : request.Course before (.ok report) after accesses) :
    report.status = 0 ∨ report.status = 1 := by
  cases course with
  | rejected => exact .inr rfl
  | printed | written => exact .inl rfl

/-- A run that succeeds prints the whole text, or writes it to the one file that it was asked to
write. -/
theorem shows (course : request.Course before (.ok report) after accesses)
    (succeeds : report.status = 0) :
    report.stderr = [] ∧ ∃ text, request.Shows before text ∧
      match request.destination? with
      | none => report.stdout = text ++ ['\n'] ∧ after = before
      | some path => report.stdout = [] ∧ before.Written after path (text ++ ['\n']) := by
  cases course with
  | rejected => cases succeeds
  | printed valid found shown goal =>
    refine ⟨rfl, _, ⟨_, _, valid, found, shown⟩, ?_⟩
    rw [goal]
    exact ⟨rfl, rfl⟩
  | written valid found shown goal wrote =>
    refine ⟨rfl, _, ⟨_, _, valid, found, shown⟩, ?_⟩
    rw [goal]
    exact ⟨rfl, Folder.written_of_write wrote⟩

end Course

end Request

end SinosLang
