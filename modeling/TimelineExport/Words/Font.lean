/-!
# Fonts

A font family has files for its regular and its bold cut. `fontFiles` lists the files in the
order in which they are tried: those of the family, and then those of the family without serifs;
where none of them is there, a built-in font is used.
-/

namespace TimelineExport

/-- A font at a size. -/
structure Font where
  family : Option String
  size : Int
  bold : Bool
  deriving DecidableEq, Repr

/-- The family that stands in for all others. -/
def fallbackFamily : String := "sans-serif"

/-- The files of each cut. -/
def fontCuts : List (String × List String) := [
  ("Inter", [
    "/usr/share/fonts/truetype/inter/Inter-Regular.ttf",
    "/usr/share/fonts/opentype/inter/Inter-Regular.otf"]),
  ("Inter Bold", [
    "/usr/share/fonts/truetype/inter/Inter-Bold.ttf",
    "/usr/share/fonts/opentype/inter/Inter-Bold.otf"]),
  ("Roboto", ["/usr/share/fonts/truetype/roboto/unhinted/RobotoTTF/Roboto-Regular.ttf"]),
  ("Roboto Bold", ["/usr/share/fonts/truetype/roboto/unhinted/RobotoTTF/Roboto-Bold.ttf"]),
  ("Open Sans", ["/usr/share/fonts/truetype/open-sans/OpenSans-Regular.ttf"]),
  ("Open Sans Bold", ["/usr/share/fonts/truetype/open-sans/OpenSans-Bold.ttf"]),
  ("Poppins", ["/usr/share/fonts/truetype/poppins/Poppins-Regular.ttf"]),
  ("Poppins Bold", ["/usr/share/fonts/truetype/poppins/Poppins-Bold.ttf"]),
  ("sans-serif", [
    "/usr/share/fonts/truetype/dejavu/DejaVuSans.ttf",
    "/usr/share/fonts/truetype/liberation/LiberationSans-Regular.ttf",
    "/usr/share/fonts/opentype/noto/NotoSansCJK-Regular.ttc",
    "/System/Library/Fonts/Helvetica.ttc"]),
  ("sans-serif Bold", [
    "/usr/share/fonts/truetype/dejavu/DejaVuSans-Bold.ttf",
    "/usr/share/fonts/truetype/liberation/LiberationSans-Bold.ttf",
    "/usr/share/fonts/opentype/noto/NotoSansCJK-Bold.ttc",
    "/System/Library/Fonts/Helvetica.ttc"])]

/-- The files of a family's cut. -/
def cutFiles (family : String) (bold : Bool) : List String :=
  (fontCuts.lookup (if bold then family ++ " Bold" else family)).getD []

namespace Font

/-- The files of a font in the order in which they are tried. -/
def files (f : Font) : List String :=
  let family := (f.family.filter (· ≠ "")).getD fallbackFamily
  let own := cutFiles family f.bold
  own ++ (cutFiles fallbackFamily f.bold).filter fun path => !own.contains path

/-- The first file that is there, and all files up to it in the order in which they were
tried. -/
def choose (present : String → Bool) (f : Font) : Option String × List String :=
  match f.files.span fun path => !present path with
  | (absent, path :: _) => (some path, absent ++ [path])
  | (absent, []) => (none, absent)

end Font

end TimelineExport
