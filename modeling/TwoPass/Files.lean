import TwoPass.Host

/-!
Files, as a tree of directories with a working directory in it. A path has names between slashes.
It is followed from the root if it starts with a slash, and from the working directory otherwise;
`.` stands for a directory itself and `..` for the one around it. Names and paths have greatest
lengths, counted in bytes, and reading and writing can be forbidden place by place.
-/

namespace TwoPass

inductive Device where
  | null
  | full
  | output
  | errors
deriving DecidableEq

inductive FileEntry where
  | file (bytes : ByteArray)
  | directory
  | device (device : Device)

abbrev Place := List String

structure Files where
  entries : List (Place × FileEntry)
  workingDirectory : Place
  unreadable : List Place := []
  unwritable : List Place := []

namespace Files

def nameMax : Nat := 255

def pathMax : Nat := 4095

def get? (files : Files) (place : Place) : Option FileEntry :=
  files.entries.lookup place

def insert (files : Files) (place : Place) (entry : FileEntry) : Files :=
  { files with entries := (place, entry) :: files.entries.filter fun other => other.1 != place }

def empty (workingDirectory : Place) : Files where
  entries := (List.range (workingDirectory.length + 1)).map fun depth =>
    (workingDirectory.take depth, .directory)
  workingDirectory := workingDirectory

def devices : List (Place × FileEntry) :=
  [(["dev"], .directory),
   (["dev", "null"], .device .null),
   (["dev", "full"], .device .full),
   (["dev", "stdin"], .device .null),
   (["dev", "stdout"], .device .output),
   (["dev", "stderr"], .device .errors)]

def extendNames (c : Char) (path : List Char × List String) : List Char × List String :=
  if c == '/' then ([], String.ofList path.1 :: path.2) else (c :: path.1, path.2)

def names (path : String) : List String :=
  let split := path.toList.foldr extendNames ([], [])
  String.ofList split.1 :: split.2

/-- Follows names from a place. Every name but the last has to lead to a directory; an empty name
stays where it is. There is nothing around the root but the root. -/
def follow (files : Files) (place : Place) : List String → Except FileError Place
  | [] => .ok place
  | name :: rest =>
      match files.get? place with
      | none => .error .notFound
      | some .directory =>
          if name = "" ∨ name = "." then follow files place rest
          else if name = ".." then follow files place.dropLast rest
          else if nameMax < name.utf8ByteSize then .error .nameTooLong
          else follow files (place ++ [name]) rest
      | some _ => .error .notDirectory

def locate (files : Files) (path : String) (names : List String) : Except FileError Place :=
  if path = "" then .error .notFound
  else if pathMax < path.utf8ByteSize then .error .nameTooLong
  else if path.toList.head? = some '/' then files.follow [] names
  else files.follow files.workingDirectory names

def read (files : Files) (path : String) : Except FileError String :=
  match files.locate path (names path) with
  | .error error => .error error
  | .ok place =>
      match files.get? place with
      | none => .error .notFound
      | some entry =>
          if place ∈ files.unreadable then .error .permissionDenied
          else
            match entry with
            | .directory => .error .isDirectory
            | .device _ => .ok ""
            | .file bytes =>
                match String.fromUTF8? bytes with
                | some text => .ok text
                | none => .error .invalidText

/-- The names of a path to write to. A slash at the end says that the last name is that of a
directory; such a path leads to the directory around it instead, which cannot be written to. -/
def writeNames (path : String) : List String :=
  let given := names path
  if given.getLast? = some "" then
    (given.reverse.dropWhile fun name => name == "").tail.reverse ++ ["."]
  else given

def write (files : Files) (path text : String) : Except FileError Echo × Files :=
  match files.locate path (writeNames path) with
  | .error error => (.error error, files)
  | .ok place =>
      match files.get? place with
      | some .directory => (.error .isDirectory, files)
      | entry =>
          if place ∈ files.unwritable then (.error .permissionDenied, files)
          else
            match entry with
            | some (.device .null) => (.ok {}, files)
            | some (.device .full) => (.error .noSpace, files)
            | some (.device .output) => (.ok { output := text }, files)
            | some (.device .errors) => (.ok { errors := text }, files)
            | _ => (.ok {}, files.insert place (.file text.toUTF8))

def host (explain : String → String) : Host Files :=
  ⟨read, write, explain⟩

theorem get?_insert (files : Files) (place other : Place) (entry : FileEntry) :
    (files.insert place entry).get? other =
      if other = place then some entry else files.get? other := by
  unfold get? insert
  by_cases same : other = place
  · simp [same]
  · have differs : (other == place) = false := by simpa using same
    have kept : ∀ entries : List (Place × FileEntry),
        (entries.filter fun entry => entry.1 != place).lookup other = entries.lookup other := by
      intro entries
      induction entries with
      | nil => rfl
      | cons first rest ih =>
          obtain ⟨key, value⟩ := first
          by_cases removed : key = place
          · simp [removed, ih, List.lookup_cons, differs]
          · by_cases found : other = key <;> simp [removed, List.lookup_cons, ih]
    simp [same, List.lookup_cons, kept, differs]

end Files

end TwoPass
