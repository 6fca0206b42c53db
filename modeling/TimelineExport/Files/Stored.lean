import TimelineExport.Files.Content
import TimelineExport.Files.Tree
import TimelineExport.Overlay.Sprite

/-!
# Files of an export

The files that an export meets are known by their size and, if they hold one, by their picture.
-/

namespace TimelineExport

/-- What is known of a file's content. -/
structure StoredFile where
  size : Nat := 0
  picture : Option (Picture Float) := none

instance : FileContent StoredFile where
  size := StoredFile.size
  join parts := { size := parts.foldr (fun part total => part.size + total) 0 }
  take n file := { size := min n file.size }

/-- What a file holds, as far as the overlay is concerned. -/
def StoredFile.source (file : StoredFile) : SourceFile Float :=
  match file.picture with
  | some picture => .picture picture
  | none => .other

/-- The source files that are seen from a place. -/
def FileTree.sources (t : FileTree StoredFile) (cwd : Place) (path : String) :
    Option (SourceFile Float) :=
  (t.contentAt? cwd path).map StoredFile.source

end TimelineExport
