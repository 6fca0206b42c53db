import TimelineExport.Text.Path
import TimelineExport.Text.Quoted

/-!
# Trees of files

A `FileTree` says what is at each place: a directory, or a file with its content. A place is the
list of the components of an absolute path; there are no links, so a place is denoted by exactly
the paths that resolve to it. The operations fail where those of a file system do, and a failure
leaves the tree as it was.
-/

namespace TimelineExport

/-- The components of an absolute path, without `.` and `..`. -/
abbrev Place := List String

/-- What is at a place. -/
inductive FileNode (γ : Type) where
  | directory
  | file (content : γ)
  deriving Repr

/-- Why an operation on files failed, with the path that was given. -/
inductive FileFault where
  | missing (path : String)
  | exists (path : String)
  | notDirectory (path : String)
  | isDirectory (path : String)
  /-- A file was to be copied onto itself. -/
  | same (source target : String)
  deriving DecidableEq, Repr

/-- What a reader is told about a failed operation. -/
def FileFault.message : FileFault → String
  | missing path => "[Errno 2] No such file or directory: " ++ quoted path
  | .exists path => "[Errno 17] File exists: " ++ quoted path
  | notDirectory path => "[Errno 20] Not a directory: " ++ quoted path
  | isDirectory path => "[Errno 21] Is a directory: " ++ quoted path
  | same source target =>
    quoted source ++ " and PosixPath(" ++ quoted target ++ ") are the same file"

/-- Directories and files by place. The root is a directory without being listed. -/
structure FileTree (γ : Type) where
  nodes : List (Place × FileNode γ) := []
  deriving Repr

namespace FileTree

variable {γ : Type}

/-- What is at a place. -/
def node? (t : FileTree γ) (p : Place) : Option (FileNode γ) :=
  if p = [] then some .directory else t.nodes.lookup p

/-- The content of the file at a place. -/
def content? (t : FileTree γ) (p : Place) : Option γ :=
  match t.node? p with
  | some (.file content) => some content
  | _ => none

/-- Whether there is a file at a place. -/
def isFile (t : FileTree γ) (p : Place) : Bool := (t.content? p).isSome

/-- Whether there is a directory at a place. -/
def isDirectory (t : FileTree γ) (p : Place) : Bool :=
  match t.node? p with
  | some .directory => true
  | _ => false

/-- Follows the components of a path. Each one, empty ones too, needs a directory to stand in. -/
def follow? (t : FileTree γ) : Place → List String → Option Place
  | p, [] => some p
  | p, part :: rest =>
    if !t.isDirectory p then none
    else if part = "" ∨ part = "." then t.follow? p rest
    else if part = ".." then t.follow? p.dropLast rest
    else t.follow? (p ++ [part]) rest

/-- The content of the file that a path leads to, seen from a place. -/
def contentAt? (t : FileTree γ) (cwd : Place) (path : String) : Option γ :=
  if path = "" then none
  else (t.follow? (if path.startsWith "/" then [] else cwd) (pathParts path)).bind t.content?

/-- Puts something at a place, in place of what was there. -/
def put (t : FileTree γ) (p : Place) (node : FileNode γ) : FileTree γ :=
  if t.nodes.any (·.1 = p) then
    { nodes := t.nodes.map fun entry => if entry.1 = p then (p, node) else entry }
  else { nodes := t.nodes ++ [(p, node)] }

/-- Removes a file or an empty directory. -/
def erase (t : FileTree γ) (p : Place) : FileTree γ :=
  { nodes := t.nodes.filter fun entry => entry.1 ≠ p }

/-- Removes a directory with everything in it. -/
def eraseAll (t : FileTree γ) (p : Place) : FileTree γ :=
  { nodes := t.nodes.filter fun entry => !p.isPrefixOf entry.1 }

/-- The places above a place, from the root down. -/
def above (p : Place) : List Place := (List.range p.length).map p.take

/-- Whether a file stands where a path to a place needs a directory. -/
def isBlocked (t : FileTree γ) (p : Place) : Bool := (above p).any t.isFile

/-- Makes a directory and those above it, as far as they are missing. -/
def makeDirectories (t : FileTree γ) (p : Place) : Except FileFault (FileTree γ) :=
  if t.isBlocked p then .error (.notDirectory (absolutePath p))
  else if t.isFile p then .error (.exists (absolutePath p))
  else
    .ok <| (above p ++ [p]).foldl (fun t q =>
      if t.isDirectory q then t else t.put q .directory) t

/-- Reads the file at a place; the path is the one that was given. -/
def read (t : FileTree γ) (p : Place) (path : String) : Except FileFault γ :=
  if t.isBlocked p then .error (.notDirectory path)
  else
    match t.node? p with
    | none => .error (.missing path)
    | some .directory => .error (.isDirectory path)
    | some (.file content) => .ok content

/-- Writes a file, in place of one that is there; the path is the one that was given. -/
def write (t : FileTree γ) (p : Place) (path : String) (content : γ) :
    Except FileFault (FileTree γ) :=
  if t.isBlocked p then .error (.notDirectory path)
  else if t.isDirectory p then .error (.isDirectory path)
  else if !t.isDirectory p.dropLast then .error (.missing path)
  else .ok (t.put p (.file content))

/-- Copies a file to a place; the path is the one by which the source was given. -/
def copy (t : FileTree γ) (source : Place) (path : String) (target : Place) :
    Except FileFault (FileTree γ) :=
  if source = target ∧ (t.node? source).isSome then .error (.same path (absolutePath target))
  else do t.write target (absolutePath target) (← t.read source path)

/-- Removes the file at a place, if there is anything. -/
def removeFile (t : FileTree γ) (p : Place) : Except FileFault (FileTree γ × Bool) :=
  match t.node? p with
  | none => .ok (t, false)
  | some .directory => .error (.isDirectory (absolutePath p))
  | some (.file _) => .ok (t.erase p, true)

/-- The places of the files below a place, seen from there. -/
def filesBelow (t : FileTree γ) (p : Place) : List Place :=
  t.nodes.filterMap fun entry =>
    match entry.2 with
    | .file _ => if p.isPrefixOf entry.1 && p ≠ entry.1 then some (entry.1.drop p.length) else none
    | .directory => none

/-- The names of what is in a directory, if there is one. -/
def entries? (t : FileTree γ) (p : Place) : Option (List String) :=
  if t.isDirectory p then
    some <| t.nodes.filterMap fun entry =>
      if p.isPrefixOf entry.1 && entry.1.length = p.length + 1 then entry.1.getLast? else none
  else none

end FileTree

end TimelineExport
