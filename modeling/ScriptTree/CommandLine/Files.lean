/-
  The files a command works on.

  A file system is a list of entries, each a regular file or a directory under its path from the
  root, together with what a process brings to it: the directory it works in and the permission bits
  that its new files lack.  Reading and writing follow a path one name at a time, from the root if
  it begins with a slash and from the working directory otherwise.  Every name but the last has to
  lead to a directory, `.` stays where it is, and `..` goes back, at the root to the root.

  Links and refusals for want of permission are left out: whatever a path leads to may be read and
  written.
-/
namespace ScriptTree.CommandLine

/-- Why a file could not be read or written. -/
inductive Reason where
  | noSuchFile
  | notDirectory
  | isDirectory
  /-- The content is not UTF-8. -/
  | notText
  deriving DecidableEq, Repr

/-- The wording of a reason. -/
def Reason.message : Reason → String
  | .noSuchFile => "No such file or directory (os error 2)"
  | .notDirectory => "Not a directory (os error 20)"
  | .isDirectory => "Is a directory (os error 21)"
  | .notText => "stream did not contain valid UTF-8"

/-- The permission bits of a file: reading, writing and executing, for its owner, its group and all
    others. -/
abbrev Mode := BitVec 9

namespace Mode

/-- The three bits that allow executing. -/
def executable : Mode := .ofNat 9 0o111

/-- Reading and writing for everyone. -/
def readWrite : Mode := .ofNat 9 0o666

end Mode

/-- What stands under a path. -/
inductive Entry where
  | file (content : ByteArray) (mode : Mode)
  | directory

/-- The entries below the root by their paths, and what a process brings to them. -/
structure Files where
  entries : List (List String × Entry)
  /-- The working directory. -/
  here : List String
  /-- The permission bits that a new file does not get. -/
  mask : Mode

namespace Files

/-- The entry under a path from the root; the root itself is a directory. -/
def get? (fs : Files) : List String → Option Entry
  | [] => some .directory
  | spot => fs.entries.lookup spot

/-- The entries with one of them set: in its place if the path is there, and last otherwise. -/
def setEntry (spot : List String) (e : Entry) :
    List (List String × Entry) → List (List String × Entry)
  | [] => [(spot, e)]
  | (p, old) :: rest => if p = spot then (p, e) :: rest else (p, old) :: setEntry spot e rest

/-- The files with one entry set. -/
def set (fs : Files) (spot : List String) (e : Entry) : Files :=
  { fs with entries := setEntry spot e fs.entries }

/-! ## Following a path -/

/-- Passes if there is a directory, so that a path can go on there. -/
def enter (fs : Files) (spot : List String) : Except Reason Unit :=
  match fs.get? spot with
  | some .directory => .ok ()
  | some (.file _ _) => .error .notDirectory
  | none => .error .noSuchFile

/-- One name further. -/
def step (spot : List String) (name : String) : List String :=
  if name = "." then spot
  else if name = ".." then spot.dropLast
  else spot ++ [name]

/-- Where names lead from a spot.  The last of them need not be there. -/
def follow (fs : Files) (spot : List String) : List String → Except Reason (List String)
  | [] => .ok spot
  | name :: rest => do
    fs.enter spot
    fs.follow (step spot name) rest

/-- The names of a path, without empty ones. -/
def names (path : String) : List String :=
  ((path.toList.splitOn '/').filter (· ≠ [])).map String.ofList

/-- Where a path starts. -/
def start (fs : Files) (path : String) : List String :=
  if path.toList.head? = some '/' then [] else fs.here

/-- Whether a path ends in a slash and so can only mean a directory. -/
def meansDirectory (path : String) : Bool :=
  path.toList.getLast? == some '/'

/-- Where a path leads. -/
def resolve (fs : Files) (path : String) : Except Reason (List String) :=
  fs.follow (fs.start path) (names path ++ if meansDirectory path then ["."] else [])

/-! ## Reading and writing -/

/-- The content of the file under a path. -/
def read (fs : Files) (path : String) : Except Reason ByteArray := do
  match fs.get? (← fs.resolve path) with
  | some (.file content _) => .ok content
  | some .directory => .error .isDirectory
  | none => .error .noSuchFile

/-- The spot of a file that is to be written. -/
def target (fs : Files) (path : String) : Except Reason (List String) := do
  if meansDirectory path then
    -- a path for a directory never names a file, whatever is there
    fs.enter (← fs.follow (fs.start path) (names path).dropLast)
    .error .isDirectory
  else
    let spot ← fs.resolve path
    match fs.get? spot with
    | some .directory => .error .isDirectory
    | _ => .ok spot

/-- The permission bits a file has when it is opened for writing: those it had, or for a new one
    those that the mask leaves of reading and writing. -/
def modeAt (fs : Files) (spot : List String) : Mode :=
  match fs.get? spot with
  | some (.file _ mode) => mode
  | _ => Mode.readWrite &&& ~~~fs.mask

/-- The files after one was written.  It keeps its permission bits, and `makeExecutable` adds the
    executable ones. -/
def write (fs : Files) (path : String) (content : ByteArray) (makeExecutable : Bool) :
    Except Reason Files := do
  let spot ← fs.target path
  let mode := if makeExecutable then fs.modeAt spot ||| Mode.executable else fs.modeAt spot
  return fs.set spot (.file content mode)

end Files

end ScriptTree.CommandLine
