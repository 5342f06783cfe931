import SmtSession.Host.Basic

/-!
# Output that is kept

A world in which everything written is kept: the texts of the two standard channels and of the
files.  Writing a file adds to its end.  Paths start from one directory, which has only files in
it; of the directories above it, and of the root, only the files written there are known.
-/

namespace SmtSession

/-- What has been written. -/
structure Disk where
  stdout : String := ""
  stderr : String := ""
  /-- The files and their texts, every path occurring at most once.  A file of the directory has
  its name for a path. -/
  files : List (String × String) := []

namespace Disk

/-! ### Paths -/

/-- The number of bytes that the name of a file may have. -/
def maxName : Nat := 255

/-- The number of bytes that a path may have. -/
def maxPath : Nat := 4095

/-- Where a path leads. -/
inductive Place where
  | directory
  /-- A name in the directory `parent`, where there may be a file of this name or not.  If a
  slash follows the name, only a directory will do. -/
  | entry (parent name : String) (slash : Bool)

/-- The directory above, of a directory whose path is empty or ends with a slash. -/
def above (parent : String) : String :=
  if parent = "/" then "/" else "../" ++ parent

/-- Follows the names of a path from the directory `parent` on, `slash` saying whether a slash
follows the last one.  All names but the last one have to be directories. -/
def walk (disk : Disk) (slash : Bool) (parent : String) : List String → Except Failure Place
  | [] => .ok .directory
  | name :: rest =>
    if name = "." then walk disk slash parent rest
    else if name = ".." then walk disk slash (above parent) rest
    else if rest.isEmpty then .ok (.entry parent name slash)
    else if maxName < name.utf8ByteSize then .error (.ofSystem .invalidFilename)
    else if (disk.files.lookup (parent ++ name)).isSome then .error (.ofSystem .notADirectory)
    else .error (.ofSystem .notFound)

/-- Where a path leads, if its names but the last one are directories. -/
def follow (disk : Disk) (path : String) : Except Failure Place :=
  if path.toList.contains '\x00' then
    .error ⟨.invalidInput, some "file name contained an unexpected NUL byte"⟩
  else if path = "" then .error (.ofSystem .notFound)
  else if maxPath < path.utf8ByteSize then .error (.ofSystem .invalidFilename)
  else
    let chars := path.toList
    let parent := if chars.head? = some '/' then "/" else ""
    let names := (path.splitOn "/").filter (· ≠ "")
    disk.walk (chars.getLast? = some '/') parent names

/-- The file that a path leads to when a file is to be written, whether it exists or not. -/
def resolve (disk : Disk) (path : String) : Except Failure String :=
  match disk.follow path with
  | .error failure => .error failure
  | .ok .directory => .error (.ofSystem .isDirectory)
  | .ok (.entry parent name slash) =>
    if slash then .error (.ofSystem .isDirectory)
    else if maxName < name.utf8ByteSize then .error (.ofSystem .invalidFilename)
    else .ok (parent ++ name)

/-- The text of the file that a path leads to, if there is one. -/
def read? (disk : Disk) (path : String) : Option String :=
  match disk.resolve path with
  | .ok file => disk.files.lookup file
  | .error _ => none

/-- Why a path cannot be run.  No file here is a program, and no program is found elsewhere by a
name without a slash. -/
def runFailure (disk : Disk) (path : String) : Failure :=
  if path.toList.contains '\x00' then
    ⟨.invalidInput, some "nul byte found in provided data"⟩
  else if !path.toList.contains '/' then
    .ofSystem (if maxName < path.utf8ByteSize then .invalidFilename else .notFound)
  else
    match disk.follow path with
    | .error failure => failure
    | .ok .directory => .ofSystem .permissionDenied
    | .ok (.entry parent name slash) =>
      if maxName < name.utf8ByteSize then .ofSystem .invalidFilename
      else if (disk.files.lookup (parent ++ name)).isNone then .ofSystem .notFound
      else .ofSystem (if slash then .notADirectory else .permissionDenied)

/-! ### Writing -/

/-- Adds a text to the end of the file of the given name, which need not exist. -/
def extend (name text : String) : List (String × String) → List (String × String)
  | [] => [(name, text)]
  | (known, content) :: rest =>
    if known = name then (known, content ++ text) :: rest
    else (known, content) :: extend name text rest

/-- Opens a file for writing at its end. -/
def openFile (path : String) : StateM Disk (Except Failure Unit) := fun disk =>
  match disk.resolve path with
  | .error failure => (.error failure, disk)
  | .ok name => (.ok (), { disk with files := extend name "" disk.files })

/-- Writes to a channel. -/
def write (channel : Channel) (text : String) : StateM Disk (Except Failure Unit) := fun disk =>
  match channel with
  | .stdout => (.ok (), { disk with stdout := disk.stdout ++ text })
  | .stderr => (.ok (), { disk with stderr := disk.stderr ++ text })
  | .file path =>
    match disk.resolve path with
    | .error failure => (.error failure, disk)
    | .ok name => (.ok (), { disk with files := extend name text disk.files })

end Disk

end SmtSession
