import Mathlib.Algebra.Order.Monoid.Unbundled.WithTop
import TimelineExport.Filter.Graph
import TimelineExport.Proofs.Number.Rational

/-!
# When a clip is played

A chain of filters plays one clip. `Filter.play` says of each filter what it does to the time at
which the clip begins in its stream, and to the time at which the stream ends: a loop never ends,
a trim cuts, `setpts` divides by the speed, and `tpad` puts a lead-in before the clip. All other
filters change the picture and not the time. A stream without an end has the length `⊤`.

A concatenation plays its streams back to back, so the clips of a stream begin where
`Graph.clipStarts` says.
-/

namespace TimelineExport

/-- A clip in its stream: when it begins, and when the stream ends. -/
structure Playback where
  startMs : Rat
  lengthMs : WithTop Rat

theorem withTop_map_self (length : WithTop Rat) : length.map (fun ms => ms) = length :=
  congrFun WithTop.map_id length

namespace Filter

/-- A time among the options of a filter. -/
def timeOf? (f : Filter Rat) (key : String) : Option Rat :=
  match f.options.lookup key with
  | some (.formula [.seconds ms]) => some ms
  | _ => none

/-- The factor by which a filter divides the times of a stream. -/
def speedOf (f : Filter Rat) : Rat :=
  match f.positional with
  | [.formula [.text "(PTS-STARTPTS)/", .number speed]] => speed
  | _ => 1

/-- What a filter does to the times of a clip. -/
def play (f : Filter Rat) (p : Playback) : Playback :=
  if f.name = "loop" then { p with lengthMs := ⊤ }
  else if f.name = "trim" then
    let stop : WithTop Rat := (f.timeOf? "end").elim ⊤ (↑)
    let limit : WithTop Rat := (f.timeOf? "duration").elim ⊤ (↑)
    { p with
      lengthMs := min ((min p.lengthMs stop).map (· - (f.timeOf? "start").getD 0)) limit }
  else if f.name = "setpts" then { p with lengthMs := p.lengthMs.map (· / f.speedOf) }
  else if f.name = "tpad" then
    let lead := (f.timeOf? "start_duration").getD 0
    { startMs := p.startMs + lead, lengthMs := p.lengthMs + lead }
  else p

theorem play_trim_range (a b : Rat) (p : Playback) :
    play { name := "trim", options := [("start", .seconds a), ("end", .seconds b)] } p =
      { p with lengthMs := (min p.lengthMs b).map (· - a) } := by
  simp [play, timeOf?, Arg.seconds, List.lookup_cons, List.lookup_nil]

theorem play_trim_duration (d : Rat) (p : Playback) :
    play { name := "trim", options := [("duration", .seconds d)] } p =
      { p with lengthMs := min p.lengthMs d } := by
  simp [play, timeOf?, Arg.seconds, List.lookup_cons, List.lookup_nil, withTop_map_self]

theorem play_setpts_text (s : String) (p : Playback) :
    play { name := "setpts", positional := [.text s] } p = p := by
  simp [play, speedOf, Arg.text, withTop_map_self]

theorem play_setpts_speed (speed : Rat) (p : Playback) :
    play { name := "setpts", positional := [.formula ["(PTS-STARTPTS)/", .number speed]] } p =
      { p with lengthMs := p.lengthMs.map (· / speed) } := by
  simp [play, speedOf]

theorem play_tpad (ms : Rat) (p : Playback) :
    play { name := "tpad", options := [("start_duration", .seconds ms), ("color", .text "black@0")] }
      p = ⟨p.startMs + ms, p.lengthMs + ms⟩ := by
  simp [play, timeOf?, Arg.seconds]

/-- What a list of filters does to the times of a clip. -/
def playAll (fs : List (Filter Rat)) (p : Playback) : Playback := fs.foldl (fun p f => f.play p) p

theorem playAll_pair (f g : Filter Rat) (p : Playback) : playAll [f, g] p = g.play (f.play p) :=
  rfl

theorem playAll_append (fs gs : List (Filter Rat)) (p : Playback) :
    playAll (fs ++ gs) p = playAll gs (playAll fs p) :=
  List.foldl_append

end Filter

/-- How a chain plays the stream of an input, whose length is given. -/
def Chain.play (media : String → WithTop Rat) (c : Chain Rat) : Playback :=
  Filter.playAll c.filters ⟨0, c.inputs.head?.elim 0 media⟩

/-- When clips begin that are played back to back. -/
def startsFrom : (offset : WithTop Rat) → List Playback → List (WithTop Rat)
  | _, [] => []
  | offset, p :: ps => (offset + p.startMs) :: startsFrom (offset + p.lengthMs) ps

namespace Graph

/-- The chains whose clips a stream plays: those that a concatenation takes, or the one that gives
the stream. -/
def clipsOf {α : Type} (g : Graph α) (label : String) : List (Chain α) :=
  match g.producer? label with
  | some c => if c.filterNames = ["concat"] then c.inputs.filterMap g.producer? else [c]
  | none => []

/-- When the clips of a stream begin. -/
def clipStarts (media : String → WithTop Rat) (g : Graph Rat) (label : String) :
    List (WithTop Rat) :=
  startsFrom 0 ((g.clipsOf label).map (·.play media))

end Graph

end TimelineExport
