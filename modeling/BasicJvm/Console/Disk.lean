import BasicJvm.Files.Path

/-!
# The files a program sees

A program of the tool set reads and writes files through a `Disk`: its working directory and
the files that exist, each under its absolute path.  Directories are implied: the root, the
working directory and every directory above it, and every directory above a file.

A path is resolved one element at a time from the working directory (from the root, for a
path that starts with `/`): an empty element and `.` stay where they are, `..` goes up, and
a name goes into what it names.  Going on from anything but a directory fails: from a file
with "not a directory", from nothing with "no such file or directory".

* `Disk.read` opens a file and reads it.  A directory opens, but reading it fails with "is
  a directory".
* `Disk.write` opens a file for writing, creating it or emptying it first.  Opening a
  directory for writing fails; a file is created only in a directory that exists.

A failure names the step that failed (`open` or `read`) and the path as the program was
given it; it also keeps the absolute path where the walk stopped, so that whoever supplies
the files can tell which one a run looked for.
-/

namespace BasicJvm.Console

/-- Why a file operation failed. -/
inductive FileProblem where
  | missing
  | notDirectory
  | isDirectory
  deriving DecidableEq, Repr

/-- The text of a file problem. -/
def FileProblem.text : FileProblem → String
  | .missing => "no such file or directory"
  | .notDirectory => "not a directory"
  | .isDirectory => "is a directory"

/-- A failed file operation: the step that failed, the path as given, why, and the absolute
path where it failed. -/
structure FileError where
  step : String
  path : String
  problem : FileProblem
  reached : String
  deriving DecidableEq, Repr

/-- The message of a failed file operation, such as `open a.bas: no such file or
directory`. -/
def FileError.message (e : FileError) : String :=
  e.step ++ " " ++ e.path ++ ": " ++ e.problem.text

/-- The files a program sees: its working directory, every file under its absolute path
with its bytes, and directories known besides those the files imply. -/
structure Disk where
  cwd : String
  files : List (String × List UInt8)
  dirs : List String
  deriving Inhabited

/-- What an absolute path names. -/
inductive Entry where
  | file (bytes : List UInt8)
  | directory
  | absent

/-- Whether an absolute path is a directory: the root, the working directory or one above
it, a known directory, or one above a file. -/
def Disk.isDirectory (d : Disk) (p : String) : Bool :=
  p == "/" || p == d.cwd || d.cwd.startsWith (p ++ "/") || d.dirs.contains p ||
    d.files.any fun (q, _) => q.startsWith (p ++ "/")

/-- What an absolute path names. -/
def Disk.entry (d : Disk) (p : String) : Entry :=
  match d.files.lookup p with
  | some bytes => .file bytes
  | none => if d.isDirectory p then .directory else .absent

/-- The absolute path of a name inside a directory. -/
def childPath (dir name : String) : String :=
  if dir == "/" then "/" ++ name else dir ++ "/" ++ name

/-- One element of a path, from the absolute path reached so far. -/
def Disk.step (d : Disk) (here name : String) : Except (FileProblem × String) String :=
  match d.entry here with
  | .file _ => .error (.notDirectory, here)
  | .absent => .error (.missing, here)
  | .directory =>
    if name.isEmpty || name == "." then .ok here
    else if name == ".." then .ok (Files.dirName here)
    else .ok (childPath here name)

/-- The absolute path a path leads to, or why it leads nowhere and where it stopped. -/
def Disk.resolve (d : Disk) (path : String) : Except (FileProblem × String) String :=
  if path.isEmpty then .error (.missing, d.cwd)
  else (path.splitOn "/").foldlM d.step (if path.startsWith "/" then "/" else d.cwd)

/-- The bytes of a file. -/
def Disk.read (d : Disk) (path : String) : Except FileError (List UInt8) :=
  match d.resolve path with
  | .error (p, at_) => .error ⟨"open", path, p, at_⟩
  | .ok abs =>
    match d.entry abs with
    | .file bytes => .ok bytes
    | .directory => .error ⟨"read", path, .isDirectory, abs⟩
    | .absent => .error ⟨"open", path, .missing, abs⟩

/-- The files with one file set to new bytes, in place or added at the end. -/
def setFile (files : List (String × List UInt8)) (p : String) (bytes : List UInt8) :
    List (String × List UInt8) :=
  if files.any (·.1 == p) then files.map fun (q, b) => if q == p then (q, bytes) else (q, b)
  else files ++ [(p, bytes)]

/-- Write a file, creating it or replacing what it held. -/
def Disk.write (d : Disk) (path : String) (bytes : List UInt8) : Except FileError Disk :=
  match d.resolve path with
  | .error (p, at_) => .error ⟨"open", path, p, at_⟩
  | .ok abs =>
    match d.entry abs with
    | .directory => .error ⟨"open", path, .isDirectory, abs⟩
    | _ => .ok { d with files := setFile d.files abs bytes }

end BasicJvm.Console
