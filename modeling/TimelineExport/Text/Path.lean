/-!
# Paths

Paths are texts with slashes. `joinPath` appends one path to another; `pathName` and
`pathSuffix` give the last component and its extension; `resolvePath` removes the components `.`
and `..` lexically, which is what a path without symbolic links stands for.
-/

namespace TimelineExport

/-- Appends a path to another: an absolute one replaces it, and no slash is doubled. -/
def joinPath (base path : String) : String :=
  if path.startsWith "/" || base = "" then path
  else if base.endsWith "/" then base ++ path
  else base ++ "/" ++ path

/-- What stands between the slashes of a path, empty parts too. -/
def pathParts (path : String) : List String := (path.toList.splitOn '/').map String.ofList

/-- The components of a path, without empty ones and without `.`. -/
def pathComponents (path : String) : List String :=
  (pathParts path).filter fun part => part ≠ "" && part ≠ "."

/-- The last component of a path, empty if there is none. -/
def pathName (path : String) : String := (pathComponents path).getLast?.getD ""

/-- The extension of the last component, from its last dot on. A dot at either end of the name
begins no extension. -/
def pathSuffix (path : String) : String :=
  let name := (pathName path).toList
  let after := (name.reverse.takeWhile (· ≠ '.')).reverse
  if after.length + 1 < name.length && !after.isEmpty then String.ofList ('.' :: after) else ""

/-- Follows components from a place: `..` goes up, and stays at the root. -/
def followPath (place : List String) : List String → List String
  | [] => place
  | ".." :: rest => followPath place.dropLast rest
  | part :: rest => followPath (place ++ [part]) rest

/-- The components of the place that a path denotes, seen from an absolute place. -/
def resolvePath (place : List String) (path : String) : List String :=
  followPath (if path.startsWith "/" then [] else place) (pathComponents path)

/-- An absolute path with the given components. -/
def absolutePath (components : List String) : String := "/" ++ "/".intercalate components

end TimelineExport
