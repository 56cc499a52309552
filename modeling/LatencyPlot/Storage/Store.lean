/-
  LatencyPlot.Storage.Store

  A file system: a tree of files and directories with a working directory in
  it. Paths are followed name by name, from the root or from the working
  directory, and looking up and writing fail the way a file system does.
-/

namespace LatencyPlot.Storage

/-- Why the file system refuses. -/
inductive StorageError where
  | notFound
  | notDirectory
  | isDirectory
  | nameTooLong
  /-- A path holds the character that ends a path in the system. -/
  | nulInPath
  /-- Another refusal, in its own words. -/
  | refused (reason : String)
  deriving DecidableEq, Repr

/-- The message of an error, with the number that the system gives it. -/
def StorageError.message : StorageError → String
  | .notFound => "No such file or directory (os error 2)"
  | .notDirectory => "Not a directory (os error 20)"
  | .isDirectory => "Is a directory (os error 21)"
  | .nameTooLong => "File name too long (os error 36)"
  | .nulInPath => "file name contained an unexpected NUL byte"
  | .refused reason => reason

/-- Why a file cannot be read: it cannot be opened, or not be read once it is open. -/
inductive AccessError where
  | opening (cause : StorageError)
  | reading (cause : StorageError)
  deriving DecidableEq, Repr

/-- What is stored under a name. -/
inductive Entry where
  | directory
  | file (content : List UInt8)
  deriving DecidableEq

/-- The names on the way from the root to an entry. -/
abbrev Location := List String

/-- A file system, and the directory in it that the program runs in. -/
structure Store where
  /-- What was put last comes first. -/
  tree : List (Location × Entry)
  /-- The working directory. -/
  home : Location

namespace Store

/-! ## Entries -/

/-- The entry at a location. The working directory and those above it are always there. -/
def entryAt? (s : Store) (location : Location) : Option Entry :=
  if location <+: s.home then some .directory else s.tree.lookup location

/-- The store with an entry at a location. -/
def set (s : Store) (location : Location) (entry : Entry) : Store :=
  { s with tree := (location, entry) :: s.tree }

@[simp] theorem home_set (s : Store) (location : Location) (entry : Entry) :
    (s.set location entry).home = s.home := rfl

theorem entryAt?_of_prefix_home {s : Store} {location : Location} (h : location <+: s.home) :
    s.entryAt? location = some .directory := if_pos h

/-- What was put at a location is there, unless the working directory is or stands in it. -/
theorem entryAt?_set_self {s : Store} {location : Location} (h : ¬ location <+: s.home)
    (entry : Entry) : (s.set location entry).entryAt? location = some entry := by
  rw [entryAt?, home_set, if_neg h, set, List.lookup_cons_self]

/-- All other locations are as before. -/
theorem entryAt?_set_of_ne {location other : Location} (h : other ≠ location) (s : Store)
    (entry : Entry) : (s.set location entry).entryAt? other = s.entryAt? other := by
  rw [entryAt?, entryAt?, home_set, set, List.lookup_cons, beq_false_of_ne h]

/-! ## In the working directory -/

/-- An empty working directory, and nothing beside it. -/
def empty : Store := ⟨[], ["work"]⟩

/-- The entry that names lead down to from the working directory. -/
def lookup? (s : Store) (names : List String) : Option Entry := s.entryAt? (s.home ++ names)

/-- The store with an entry below the working directory. -/
def put (s : Store) (names : List String) (entry : Entry) : Store := s.set (s.home ++ names) entry

/-- What is below the working directory, by the names that lead down to it. -/
def entries (s : Store) : List (List String × Entry) :=
  s.tree.filterMap fun (location, entry) =>
    if s.home <+: location then some (location.drop s.home.length, entry) else none

example : (empty.put ["runs", "a.csv"] (.file [])).entries = [(["runs", "a.csv"], .file [])] := by
  decide

/-! ## Paths -/

/-- The names of a path between its slashes. -/
def names (path : String) : List String := (path.toList.splitOn '/').map String.ofList

/-- The greatest number of bytes in a name. -/
def maxName : Nat := 255

/-- The greatest number of bytes in a path. -/
def maxPath : Nat := 4095

/-- The location that names lead to from another one. Each name needs a directory to stand in; the
    location itself need not be there. Two dots lead to the directory above, and from the root to
    the root. -/
def follow (s : Store) (here : Location) : List String → Except StorageError Location
  | [] => .ok here
  | name :: rest =>
    match s.entryAt? here with
    | none => .error .notFound
    | some (.file _) => .error .notDirectory
    | some .directory =>
      if name = "" ∨ name = "." then s.follow here rest
      else if name = ".." then s.follow here.dropLast rest
      else if maxName < name.utf8ByteSize then .error .nameTooLong
      else s.follow (here ++ [name]) rest

/-- The location that the names of a path lead to: from the root if the path begins with a slash,
    and else from the working directory. An empty path leads nowhere. -/
def locateNames (s : Store) : List String → Except StorageError Location
  | [""] => .error .notFound
  | "" :: rest => s.follow [] rest
  | names => s.follow s.home names

/-- Fails for a path that no system call takes. -/
def vet (path : String) : Except StorageError Unit :=
  if path.toList.contains '\x00' then .error .nulInPath
  else if maxPath < path.utf8ByteSize then .error .nameTooLong
  else .ok ()

/-- The location that a path leads to. -/
def locate (s : Store) (path : String) : Except StorageError Location := do
  vet path
  s.locateNames (names path)

/-! ## Reading -/

/-- The entry that a path leads to. -/
def find (s : Store) (path : String) : Except StorageError Entry := do
  match s.entryAt? (← s.locate path) with
  | none => .error .notFound
  | some entry => .ok entry

/-- Whether a path leads to a file. -/
def isFile (s : Store) (path : String) : Bool :=
  match s.find path with
  | .ok (.file _) => true
  | _ => false

/-- The content of the file that a path leads to. A directory can be opened but not read. -/
def read (s : Store) (path : String) : Except AccessError (List UInt8) :=
  match s.find path with
  | .error e => .error (.opening e)
  | .ok .directory => .error (.reading .isDirectory)
  | .ok (.file content) => .ok content

/-! ## Writing -/

/-- Fails where a directory is, which no file can take the place of. -/
def vacancy (s : Store) (location : Location) : Except StorageError Location :=
  match s.entryAt? location with
  | some .directory => .error .isDirectory
  | _ => .ok location

/-- The names before the last one. -/
def parents (path : String) : List String := ((names path).reverse.dropWhile (· = "")).tail.reverse

/-- The location where a file can be written. A path that ends in a slash names a directory, there
    or not; only the directories on the way are looked at. -/
def target (s : Store) (path : String) : Except StorageError Location := do
  vet path
  if path.endsWith "/" then
    let _ ← s.locateNames (parents path ++ ["."])
    .error .isDirectory
  else s.vacancy (← s.locateNames (names path))

/-- Makes a file, or empties the one that is there, and gives its location. -/
def create (s : Store) (path : String) : Except StorageError (Location × Store) := do
  let location ← s.target path
  return (location, s.set location (.file []))

/-- The store after bytes are written to a file that was empty. -/
def fill (s : Store) (location : Location) (content : List UInt8) : Store :=
  s.set location (.file content)

/-- The store after a file is written as a whole. -/
def write (s : Store) (path : String) (content : List UInt8) : Except StorageError Store := do
  let (location, created) ← s.create path
  return created.fill location content

end Store

end LatencyPlot.Storage
