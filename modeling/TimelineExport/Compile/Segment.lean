import TimelineExport.Compile.Fault
import TimelineExport.Export.Settings
import TimelineExport.Timeline.Element

/-!
# Segments: the picture of one clip

A video or image becomes a chain that cuts its source, fits it into the frame, and shows its
transitions. Times inside a segment are local: zero is the clip's first frame. A transition at
the start is active in `[0, length)` and one at the end in `(start, start + length]`, where
`start + length` is the clip's duration; every filter of a transition is built from these two
windows (`Element.entry`, `Element.exit`).

A gap before the clip is filled by a transparent lead-in, so that the segments of a track can be
played back to back.
-/

namespace TimelineExport

/-- An active transition: its effect and the window in which it is active, in local time. -/
structure Window (α : Type) where
  effect : Effect
  startMs : α
  lengthMs : α
  deriving Repr

section
variable {α : Type} [Scalar α]

namespace Element

/-- The transition at the start of the clip, if one is active. -/
def entry (e : Element α) : Option (Window α) :=
  match e.transitionIn with
  | some ⟨some effect, _⟩ => if e.inMs > 0 then some ⟨effect, 0, e.inMs⟩ else none
  | _ => none

/-- The transition at the end of the clip, if one is active. -/
def exit (e : Element α) : Option (Window α) :=
  match e.transitionOut with
  | some ⟨some effect, _⟩ =>
    if e.outMs > 0 then some ⟨effect, e.duration - e.outMs, e.outMs⟩ else none
  | _ => none

end Element

namespace Window

/-- Whether the transition has a given effect. -/
def hasEffect (effect : Effect) (w : Window α) : Bool := w.effect = effect

/-- The fade through black, or through transparency, of a transition. -/
def fade? (direction : String) (start : Arg α) (w : Window α) : Option (Filter α) :=
  let times := [("t", Arg.text direction), ("st", start), ("d", .seconds w.lengthMs)]
  match w.effect with
  | .fade => some { name := "fade", options := times }
  | .dissolve | .zoom => some { name := "fade", options := times ++ [("alpha", .int 1)] }
  | _ => none

/-- The part of a mask that uncovers the picture during a transition at the start. -/
def entryMask? (w : Window α) : Option (Formula α) :=
  match w.effect with
  | .wipe => some ["lte(X,W*min(1,T/", .seconds w.lengthMs, "))"]
  | .iris => some ["lte(hypot(X-W/2,Y-H/2),hypot(W,H)/2*min(1,T/", .seconds w.lengthMs, "))"]
  | _ => none

/-- The part of a mask that covers the picture during a transition at the end. -/
def exitMask? (w : Window α) : Option (Formula α) :=
  match w.effect with
  | .wipe =>
    some ["lte(X,W*(1-max(0,(T-", .seconds w.startMs, ")/", .seconds w.lengthMs, ")))"]
  | .iris =>
    some ["lte(hypot(X-W/2,Y-H/2),hypot(W,H)/2*(1-max(0,(T-", .seconds w.startMs, ")/",
      .seconds w.lengthMs, ")))"]
  | _ => none

end Window

/-- The effect that a filter needs at either end. -/
def windowOf (effect : Effect) (w : Option (Window α)) : Option (Window α) :=
  w.filter (·.hasEffect effect)

/-- The factor at which a zoom begins, or ends. -/
def zoomFactor : α := 1.5

/-- The zoom of a clip: from the factor down to one at the start, and up again at the end. -/
def zoomFilter? (settings : ExportSettings) (entry exit : Option (Window α)) :
    Option (Filter α) :=
  let extra : Piece α := .number (zoomFactor - 1)
  match windowOf .zoom entry, windowOf .zoom exit with
  | none, none => none
  | first, last =>
    let rest : Formula α :=
      match last with
      | some w =>
        ["if(gt(it,", .seconds w.startMs, "),1+", extra, "*(it-", .seconds w.startMs, ")/",
          .seconds w.lengthMs, ",1)"]
      | none => [.text "1"]
    let zoom : Formula α :=
      match first with
      | some w =>
        let first : Formula α :=
          ["if(lt(it,", .seconds w.lengthMs, "),", .number zoomFactor, "-", extra, "*it/",
            .seconds w.lengthMs, ","]
        first ++ rest ++ [.text ")"]
      | none => rest
    some {
      name := "zoompan"
      options := [("z", .formula zoom), ("x", .text "iw/2-(iw/zoom/2)"),
        ("y", .text "ih/2-(ih/zoom/2)"), ("d", .int 1),
        ("s", .text (toString settings.width ++ "x" ++ toString settings.height)),
        ("fps", .int settings.fps)] }

/-- The slide of a clip: the picture lies in the middle third of a transparent strip, across
which a window of the frame's size is moved. -/
def slideFilters (settings : ExportSettings) (entry exit : Option (Window α)) :
    List (Filter α) :=
  let w : String := toString settings.width
  match windowOf .slide entry, windowOf .slide exit with
  | none, none => []
  | first, last =>
    let rest : Formula α :=
      match last with
      | some t =>
        ["if(gt(t,", .seconds t.startMs, "),", w, "+", w, "*(t-", .seconds t.startMs, ")/",
          .seconds t.lengthMs, ",", w, ")"]
      | none => [.text w]
    let offset : Formula α :=
      match first with
      | some t =>
        let first : Formula α :=
          ["if(lt(t,", .seconds t.lengthMs, "),", w, "*t/", .seconds t.lengthMs, ","]
        first ++ rest ++ [.text ")"]
      | none => rest
    [{ name := "pad"
       positional := [.int (3 * settings.width), .int settings.height, .int settings.width, .int 0]
       options := [("color", .text "black@0")] },
     { name := "crop"
       options := [("w", .int settings.width), ("h", .int settings.height), ("x", .formula offset),
         ("y", .int 0)] }]

/-- The mask of a clip for wipes and irises. -/
def maskFilters (entry exit : Option (Window α)) : List (Filter α) :=
  let masks :=
    ((windowOf .wipe entry).bind (·.entryMask?)).toList ++
      ((windowOf .wipe exit).bind (·.exitMask?)).toList ++
      ((windowOf .iris entry).bind (·.entryMask?)).toList ++
      ((windowOf .iris exit).bind (·.exitMask?)).toList
  if masks.isEmpty then []
  else [{
    name := "geq"
    options := [("lum", .text "lum(X,Y)"), ("cb", .text "cb(X,Y)"), ("cr", .text "cr(X,Y)"),
      ("a", .formula ("alpha(X,Y)" :: masks.flatMap fun m => "*" :: m))] }]

namespace Element

/-- The filters that show the transitions of a clip. -/
def transitionFilters (settings : ExportSettings) (e : Element α) : List (Filter α) :=
  let entry := e.entry
  let exit := e.exit
  (entry.bind (·.fade? "in" (.text "0"))).toList ++
    (exit.bind fun w => w.fade? "out" (.seconds w.startMs)).toList ++
    (zoomFilter? settings entry exit).toList ++
    slideFilters settings entry exit ++
    maskFilters entry exit

/-- One side of the box into which a clip is scaled. -/
def boxSide (side : Nat) (scale : α) : Except (CompileFault α) Int :=
  match Scalar.nearest (Scalar.ofInt side * scale) with
  | .ok n => .ok (max 2 n)
  | .error fault => .error (.unrounded fault)

/-- Where a clip lies inside the padded frame: in the middle, or moved by an offset but never
out of the frame. -/
def padOffset (length free : String) (offset : Option α) : Formula α :=
  let middle := "(o" ++ length ++ "-i" ++ length ++ ")/2"
  match offset with
  | none => [.text middle]
  | some x => [.text ("max(0,min(" ++ free ++ "," ++ middle ++ "+"), .number x, "))"]

/-- The filters that scale a clip into the frame, or a scaled box, and pad it to the frame. -/
def fitFilters (settings : ExportSettings) (e : Element α) :
    Except (CompileFault α) (List (Filter α)) := do
  let props := e.properties
  let width := settings.width
  let height := settings.height
  let boxWidth ← boxSide width props.scale
  let boxHeight ← boxSide height props.scale
  let moved := props.position.filter fun p => !(p.x == 0 && p.y == 0)
  return [{
      name := "scale"
      options := [("w", .int boxWidth), ("h", .int boxHeight),
        ("force_original_aspect_ratio", .text "decrease"), ("force_divisible_by", .int 2)] }] ++
    (if props.scale > 1 then [{
      name := "crop"
      options := [("w", .text ("min(iw," ++ toString width ++ ")")),
        ("h", .text ("min(ih," ++ toString height ++ ")"))] }] else []) ++
    [{ name := "pad"
       positional := [.int width, .int height, .formula (padOffset "w" "ow-iw" (moved.map (·.x))),
         .formula (padOffset "h" "oh-ih" (moved.map (·.y)))]
       options := [("color", .text "black")] },
     { name := "setsar", positional := [.int 1] }]

/-- The filters that play a clip from its source: a still picture is repeated for ever, a video
is cut to its range and played at its speed. -/
def sourceFilters (settings : ExportSettings) (e : Element α) : List (Filter α) :=
  if e.kind = .image then [
    { name := "loop", options := [("loop", .int (-1)), ("size", .int 1), ("start", .int 0)] },
    { name := "setpts", positional := [.text ("N/(" ++ toString settings.fps ++ "*TB)")] }]
  else [
    { name := "trim"
      options := [("start", .seconds e.sourceRange.1), ("end", .seconds e.sourceRange.2)] },
    { name := "setpts"
      positional := [
        if e.speed == 1 then .text "PTS-STARTPTS"
        else .formula ["(PTS-STARTPTS)/", .number e.speed]] }]

/-- The filters that make a clip translucent, if it is not opaque. -/
def opacityFilters (e : Element α) : List (Filter α) :=
  if e.opacity == 1 then []
  else [
    { name := "format", positional := [.text "rgba"] },
    { name := "colorchannelmixer", options := [("aa", .number e.opacity)] },
    { name := "format", positional := [.text "yuva420p"] }]

/-- The transparent lead-in that fills a gap. -/
def leadIn (gapMs : α) : List (Filter α) :=
  if gapMs > 0 then [{
    name := "tpad"
    options := [("start_duration", .seconds gapMs), ("color", .text "black@0")] }]
  else []

/-- All filters of a segment, from the source to the lead-in. -/
def segmentFilters (settings : ExportSettings) (gapMs : α) (e : Element α) :
    Except (CompileFault α) (List (Filter α)) := do
  let fit ← e.fitFilters settings
  return e.sourceFilters settings ++ [{ name := "fps", positional := [.int settings.fps] }] ++
    fit ++ [{ name := "format", positional := [.text "yuva420p"] }] ++ e.opacityFilters ++
    e.transitionFilters settings ++
    [{ name := "trim", options := [("duration", .seconds e.duration)] },
     { name := "setpts", positional := [.text "PTS-STARTPTS"] }] ++ leadIn gapMs

end Element

end

end TimelineExport
