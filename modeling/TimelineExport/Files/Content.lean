/-!
# Contents of files

A content has a size, and contents that arrive piece by piece are joined. Nothing else about
contents matters to an export, so they are a parameter: they may be lists of bytes, or just
numbers of bytes.
-/

namespace TimelineExport

/-- What a file can hold. -/
class FileContent (γ : Type) where
  /-- The number of bytes. -/
  size : γ → Nat
  /-- Pieces one behind another. -/
  join : List γ → γ
  /-- So many bytes from the start. -/
  take : Nat → γ → γ

instance : FileContent (List UInt8) where
  size := List.length
  join := List.flatten
  take := List.take

end TimelineExport
