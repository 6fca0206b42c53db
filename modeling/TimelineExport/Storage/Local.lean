import TimelineExport.Error.Basic
import TimelineExport.Files.Tree

/-!
# Storage in a directory

Results are kept in a directory under keys, which are paths below it. A key may hold `.` and
`..`; it is resolved first, and refused if it does not lead to a place strictly below the
directory. Every operation begins with this check, and so none of them reaches anything outside
the directory. Looking up a key makes the directories above its place.
-/

namespace TimelineExport

/-- The key under which the result of a job is kept. -/
def resultKey (job : String) : String := "exports/" ++ job ++ ".mp4"

/-- A directory in which results are kept, and the URL under which they are served. -/
structure LocalStorage where
  root : Place
  publicUrl : String

/-- Why an operation on storage failed: it is reported as a failure of the export, or it is one
of the file system. -/
inductive StorageFault where
  | storage (error : ExportError)
  | files (fault : FileFault)
  deriving Repr

namespace LocalStorage

variable {γ : Type}

/-- The place that a key leads to, if it is below the root. -/
def place? (s : LocalStorage) (key : String) : Option Place :=
  let p := resolvePath s.root key
  if s.root.isPrefixOf p ∧ p ≠ s.root then some p else none

/-- The place of a key, after the directories above it have been made. -/
def locate (s : LocalStorage) (t : FileTree γ) (key : String) :
    Except StorageFault (Place × FileTree γ) :=
  match s.place? key with
  | none => .error (.storage (.storage ("Storage key escapes storage root: " ++ key)))
  | some p => ((t.makeDirectories p.dropLast).map fun t => (p, t)).mapError .files

/-- The URL under which a key is served. -/
def url (s : LocalStorage) (key : String) : String :=
  let base := (s.publicUrl.toList.reverse.dropWhile (· = '/')).reverse
  String.ofList base ++ "/api/export/files/" ++ key

/-- Copies a file into the storage and gives its URL. The path of the file is seen from the
given place. The tree is that after the operation, whether or not it failed. -/
def upload (s : LocalStorage) (t : FileTree γ) (cwd : Place) (path key : String) :
    Except StorageFault String × FileTree γ :=
  match s.locate t key with
  | .error fault => (.error fault, t)
  | .ok (p, t) =>
    match t.copy (resolvePath cwd path) path p with
    | .error fault =>
      (.error (.storage (.storage ("Failed to store " ++ key ++ ": " ++ fault.message))), t)
    | .ok t => (.ok (s.url key), t)

/-- Whether there is anything under a key. -/
def fileExists (s : LocalStorage) (t : FileTree γ) (key : String) :
    Except StorageFault Bool × FileTree γ :=
  match s.locate t key with
  | .error fault => (.error fault, t)
  | .ok (p, t) => (.ok (t.node? p).isSome, t)

/-- Removes the file under a key; whether there was one. -/
def delete (s : LocalStorage) (t : FileTree γ) (key : String) :
    Except StorageFault Bool × FileTree γ :=
  match s.locate t key with
  | .error fault => (.error fault, t)
  | .ok (p, t) =>
    match t.removeFile p with
    | .error fault => (.error (.files fault), t)
    | .ok (t, found) => (.ok found, t)

end LocalStorage

end TimelineExport
