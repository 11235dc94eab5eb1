import SinosLang.Text.Quoted

/-!
# Files

A program reaches files through a disk: one action that reads a whole file as text and one that
writes it. Opening a file to be written, which empties it, and writing it are one action, for nothing
can come between the two: every text can be encoded. A folder is a disk in memory, with its files and
directories by place. Reading makes line ends uniform; writing changes nothing in the text. Main
statements: a file holds what was put there, and all other files stay as they are.
-/

set_option autoImplicit false

namespace SinosLang

/-- Why a file could not be read or written. -/
inductive FileFault where
  | notFound
  | notADirectory
  | isADirectory
  | nameTooLong
  | notText
  | badPath
  | other (reason : Text)
deriving DecidableEq, Repr

/-- A file that could not be read or written, and why. -/
structure FileError where
  fault : FileFault
  path : Text
deriving DecidableEq, Repr

/-- The words for a file error. -/
def FileError.message (error : FileError) : Text :=
  match error.fault with
  | .notFound => "[Errno 2] No such file or directory: ".toList ++ Text.listed error.path
  | .notADirectory => "[Errno 20] Not a directory: ".toList ++ Text.listed error.path
  | .isADirectory => "[Errno 21] Is a directory: ".toList ++ Text.listed error.path
  | .nameTooLong => "[Errno 36] File name too long: ".toList ++ Text.listed error.path
  | .notText => "not a text in UTF-8: ".toList ++ Text.listed error.path
  | .badPath => "embedded null byte".toList
  | .other reason => reason

/-- The two things that a program does with files. -/
structure Disk (m : Type → Type) where
  read : Text → m (Except FileError Text)
  write : Text → Text → m (Except FileError Unit)

/-- What a file holds: text, or bytes that are none. -/
inductive Contents where
  | text (text : Text)
  | binary
deriving DecidableEq, Repr

/-- A directory in memory with all below it, and the files outside of it that are known. A place is
the list of the names that lead there; the empty list is the directory itself. Places outside of it
begin with double dots or with the root. -/
structure Folder where
  directories : List (List Text)
  files : List (List Text × Contents)
  outside : List (List Text × Contents) := []

namespace Folder

/-- The place of the root of all directories. -/
def root : List Text :=
  [['/']]

/-- The directories below the root that every system has. -/
def systemDirectories : List (List Text) :=
  ["bin", "boot", "dev", "etc", "home", "lib", "media", "mnt", "opt", "proc", "root", "run", "sbin",
    "srv", "sys", "tmp", "usr", "var"].map fun name => root ++ [name.toList]

/-- The place of the device that swallows what is written to it. -/
def nullDevice : List Text :=
  root ++ ["dev".toList, "null".toList]

/-- The names in a path, between its slashes. -/
def names (path : Text) : List Text :=
  Text.splitWhere (· == '/') path

/-- Where a path begins: at the root if it begins with a slash, else at the folder. -/
def origin (path : Text) : List Text :=
  if path.head? == some '/' then root else []

/-- Whether a name leads to the directory above. -/
def isUp (name : Text) : Bool :=
  name == ['.', '.']

/-- The place above another one. The root is above itself. -/
def above (place : List Text) : List Text :=
  if place == root then root
  else if place.all isUp then place ++ [['.', '.']]
  else place.dropLast

/-- Where one name leads: an empty name and a single dot stay, and a double dot goes up. -/
def step (place : List Text) (name : Text) : List Text :=
  if name.isEmpty || name == ['.'] then place
  else if isUp name then above place
  else place ++ [name]

/-- Where a path leads, whatever stands on the way. -/
def place (path : Text) : List Text :=
  (names path).foldl step (origin path)

/-- Whether a place lies inside the folder. -/
def isInside (place : List Text) : Bool :=
  !place.any isUp && !root.isPrefixOf place

/-- All files that are known, by place. -/
def entries (folder : Folder) : List (List Text × Contents) :=
  folder.files ++ folder.outside

/-- Whether there is a directory at a place. Outside of the folder only those above it, the root, the
system's own and those above a known file are known. -/
def isDirectory (folder : Folder) (place : List Text) : Bool :=
  place.all isUp || place == root || systemDirectories.contains place ||
    folder.directories.any place.isPrefixOf ||
    folder.entries.any fun file => place.isPrefixOf file.1 && file.1 != place

/-- What the file at a place holds. -/
def file? (folder : Folder) (place : List Text) : Option Contents :=
  folder.entries.lookup place

/-- What keeps a path from going on at a place: it has to be a directory. -/
def barrier? (folder : Folder) (place : List Text) : Option FileFault :=
  if (folder.file? place).isSome || place == nullDevice then some .notADirectory
  else if folder.isDirectory place then none
  else some .notFound

/-- The bytes that a text takes in UTF-8. -/
def byteCount (text : Text) : Nat :=
  (String.ofList text).utf8ByteSize

/-- Follows names from a place on. All but the last one have to lead to directories. -/
def follow (folder : Folder) (place : List Text) : List Text → Except FileFault (List Text)
  | [] => .ok place
  | [name] => if 255 < byteCount name then .error .nameTooLong else .ok (step place name)
  | name :: later =>
    if 255 < byteCount name then
      .error .nameTooLong
    else
      match folder.barrier? (step place name) with
      | some fault => .error fault
      | none => follow folder (step place name) later

/-- Follows a path that has the given names. -/
def locate (folder : Folder) (path : Text) (names : List Text) : Except FileFault (List Text) :=
  if path.contains '\x00' then .error .badPath
  else if path.isEmpty then .error .notFound
  else if 4095 < byteCount path then .error .nameTooLong
  else folder.follow (origin path) names

/-- Reads the file at a path, with its line ends made uniform. -/
def read (folder : Folder) (path : Text) : Except FileError Text :=
  match folder.locate path (names path) with
  | .error fault => .error ⟨fault, path⟩
  | .ok place =>
    match folder.file? place with
    | some (.text text) => .ok (Text.unifyNewlines text)
    | some .binary => .error ⟨.notText, path⟩
    | none =>
      if folder.isDirectory place then .error ⟨.isADirectory, path⟩ else .error ⟨.notFound, path⟩

/-- Some files without the one at a place. -/
def without (place : List Text) (files : List (List Text × Contents)) :
    List (List Text × Contents) :=
  files.filter fun file => file.1 != place

/-- The folder in which a file holds a text. -/
def put (folder : Folder) (place : List Text) (text : Text) : Folder :=
  if isInside place then
    { folder with
      files := (place, .text text) :: without place folder.files
      outside := without place folder.outside }
  else
    { folder with
      files := without place folder.files
      outside := (place, .text text) :: without place folder.outside }

/-- The place of the file that is opened for writing, which need not exist. A path that ends in a
slash can only mean a directory. -/
def target (folder : Folder) (path : Text) : Except FileFault (List Text) :=
  let reversed := (names path).reverse
  let proper := (reversed.dropWhile List.isEmpty).reverse
  match folder.locate path proper with
  | .error fault => .error fault
  | .ok place =>
    if path.getLast? == some '/' || folder.isDirectory place then .error .isADirectory
    else .ok place

/-- Writes a text to the file at a path. The null device keeps nothing. -/
def write (folder : Folder) (path text : Text) : Except FileError Folder :=
  match folder.target path with
  | .error fault => .error ⟨fault, path⟩
  | .ok place => .ok (if place == nullDevice then folder else folder.put place text)

/-- A file that was taken out of the list is not found there. -/
theorem lookup_without_self (place : List Text) (files : List (List Text × Contents)) :
    (without place files).lookup place = none := by
  rw [List.lookup_eq_none_iff]
  intro file isKept
  have other := (List.mem_filter.mp isKept).2
  rwa [bne_comm] at other

/-- Taking one file out of the list leaves every other file where it is. -/
theorem lookup_without_of_ne {place other : List Text} (different : other ≠ place)
    (files : List (List Text × Contents)) :
    (without place files).lookup other = files.lookup other := by
  induction files with
  | nil => rfl
  | cons file files ih =>
    obtain ⟨name, contents⟩ := file
    rw [without] at ih ⊢
    by_cases same : name = place
    · have apart : (other == name) = false := by simpa [same] using different
      rw [List.filter_cons_of_neg (by simp [same]), ih, List.lookup_cons, apart]
    · rw [List.filter_cons_of_pos (by simpa using same)]
      simp only [List.lookup_cons, ih]

/-- A file holds what was put there. -/
@[simp]
theorem file?_put_self (folder : Folder) (place : List Text) (text : Text) :
    (folder.put place text).file? place = some (.text text) := by
  rw [file?, entries, put]
  split
  · rw [List.cons_append, List.lookup_cons_self]
  · rw [List.lookup_append, lookup_without_self, List.lookup_cons_self, Option.none_or]

/-- Putting a text into one file leaves all others as they are. -/
theorem file?_put_of_ne (folder : Folder) {place other : List Text} (text : Text)
    (different : other ≠ place) : (folder.put place text).file? other = folder.file? other := by
  have apart : (other == place) = false := by simpa using different
  rw [file?, file?, entries, entries, put]
  split <;>
    simp only [List.lookup_append, List.lookup_cons, apart, lookup_without_of_ne different]

/-- The disk that a folder is. -/
def disk : Disk (StateM Folder) where
  read path := fun folder => (folder.read path, folder)
  write path text := fun folder =>
    match folder.write path text with
    | .ok after => (.ok (), after)
    | .error error => (.error error, folder)

end Folder

end SinosLang
