import TimelineExport.Overlay.Fault

/-!
# The pass over all frames

Workers draw the frames of an overlay side by side and write them into one directory. A frame
that is equal to one that was drawn before is not drawn again: its bytes are taken from a store.
A worker's look-up, drawing, keeping and writing are separate steps, in any interleaving with
those of other workers, and between any two of them the worker may fail for a reason of its own. The
pass collects finished frames one by one and reports how many there are; the first one that failed,
or a listener that raises, abandons the pass. After a frame that failed the others are given up
unless a worker has begun them; after a listener that raises they are all seen through. The pass
closes when every frame is settled, and then the directory is checked, and removed if anything is
wrong.

The key of a frame, its drawing and its bytes are parameters; a frame without a key is always
drawn.
-/

namespace TimelineExport

/-- How far a worker is with a frame. -/
inductive FrameWork (γ : Type) where
  /-- Looked up and not found. -/
  | absent
  | drawn (data : γ)
  /-- Ready to be written. -/
  | ready (data : γ)
  | written
  | failed (fault : OverlayFault)
  /-- Given up before a worker has begun it. -/
  | dropped
  deriving Repr

/-- A listener to a pass: why it raises, if it does, when so many frames of so many are done. -/
abbrev FrameListener := (finished total : Nat) → Option String

/-- What the workers need: the key of each frame's content, unless it must not be kept, whether
two keys are the same, and how a frame is drawn. -/
structure FramePlan (κ γ : Type) where
  total : Nat
  key : Nat → Option κ
  same : κ → κ → Bool
  draw : Nat → Except OverlayFault γ
  /-- The name of a frame's file. -/
  name : Nat → String
  listener : Option FrameListener := none

/-- What happens in a pass. -/
inductive FrameEvent where
  | look (n : Nat)
  | draw (n : Nat)
  | keep (n : Nat)
  | write (n : Nat)
  | breakOff (n : Nat) (reason : String)
  | collect (n : Nat)
  | drop (n : Nat)
  | cancel
  | close
  deriving DecidableEq, Repr

/-- The state of a pass. -/
structure FramePass (κ γ : Type) where
  /-- The files in the directory, as long as there is one. -/
  directory : Option (List (String × Option γ))
  kept : List (κ × γ) := []
  work : List (Nat × FrameWork γ) := []
  collected : List Nat := []
  reports : List (Nat × Nat) := []
  cancelled : Bool := false
  failure : Option OverlayFault := none
  closed : Bool := false

/-- Puts a file into a directory, in place of one of the same name. -/
def putFile {γ : Type} (files : List (String × Option γ)) (name : String) (data : γ) :
    List (String × Option γ) :=
  if files.any (·.1 = name) then
    files.map fun f => if f.1 = name then (name, some data) else f
  else (name, some data) :: files

namespace FramePass

variable {κ γ : Type}

/-- How far a frame is. -/
def workOf (s : FramePass κ γ) (n : Nat) : Option (FrameWork γ) := s.work.lookup n

/-- Sets how far a frame is. -/
def setWork (s : FramePass κ γ) (n : Nat) (w : FrameWork γ) : FramePass κ γ :=
  { s with work := (n, w) :: s.work }

/-- Begins a frame: nothing is drawn after a cancellation; otherwise the store is searched. -/
def look (plan : FramePlan κ γ) (s : FramePass κ γ) (n : Nat) : FramePass κ γ :=
  if s.cancelled then s.setWork n (.failed .cancelled)
  else
    match (plan.key n).bind fun key => s.kept.find? fun entry => plan.same key entry.1 with
    | some entry => s.setWork n (.ready entry.2)
    | none => s.setWork n .absent

/-- Draws a frame that was not found. -/
def draw (plan : FramePlan κ γ) (s : FramePass κ γ) (n : Nat) : FramePass κ γ :=
  match plan.draw n with
  | .ok data => s.setWork n (.drawn data)
  | .error fault => s.setWork n (.failed fault)

/-- Keeps a drawn frame in the store, in place of one with the same key. -/
def keep (plan : FramePlan κ γ) (s : FramePass κ γ) (n : Nat) (data : γ) : FramePass κ γ :=
  match plan.key n with
  | none => s.setWork n (.ready data)
  | some key =>
    { s with kept := (key, data) :: s.kept.filter fun entry => !plan.same key entry.1 }.setWork n
      (.ready data)

/-- Writes a frame into the directory. -/
def write (plan : FramePlan κ γ) (s : FramePass κ γ) (n : Nat) (data : γ) : FramePass κ γ :=
  { s with directory := s.directory.map fun files => putFile files (plan.name n) data }.setWork n
    .written

/-- Takes note of a finished frame. -/
def collect (plan : FramePlan κ γ) (s : FramePass κ γ) (n : Nat) : FramePass κ γ :=
  match s.workOf n with
  | some (.failed fault) => { s with failure := some (.frame n fault.message) }
  | some .written =>
    let collected := n :: s.collected
    let finished := collected.length
    match plan.listener with
    | none => { s with collected }
    | some listener =>
      { s with
        collected
        reports := s.reports ++ [(finished, plan.total)]
        failure := (listener finished plan.total).map .listener }
  | _ => s

/-- Whether a worker is in the middle of a frame. -/
def isActive (s : FramePass κ γ) (n : Nat) : Bool :=
  match s.workOf n with
  | some .absent | some (.drawn _) | some (.ready _) => true
  | _ => false

/-- Whether nothing more happens to a frame. -/
def isSettled (s : FramePass κ γ) (n : Nat) : Bool :=
  match s.workOf n with
  | some .written | some (.failed _) | some .dropped => true
  | _ => false

/-- Whether a frame that failed has abandoned the pass. -/
def isAbandoned (s : FramePass κ γ) : Bool :=
  match s.failure with
  | some (.frame _ _) => true
  | _ => false

/-- Whether the pass may close. -/
def mayClose (plan : FramePlan κ γ) (s : FramePass κ γ) : Bool :=
  !s.closed && (s.failure.isSome || s.collected.length == plan.total) &&
    (List.range plan.total).all s.isSettled

/-- What is wrong with the files of a finished pass: frames that are missing, or files named
like frames that are none. -/
def checkFiles (plan : FramePlan κ γ) (files : List (String × Option γ)) : Option OverlayFault :=
  let expected := (List.range plan.total).map plan.name
  let present := (files.map (·.1)).filter fun name => "frame_".toList.isPrefixOf name.toList
  let missing := expected.filter fun name => !present.contains name
  let extra := (present.filter fun name => !expected.contains name).mergeSort
  match missing.mergeSort with
  | first :: _ => some (.missingFrames missing.length first)
  | [] => if extra.isEmpty then none else some (.unexpectedFrames (extra.take 3))

/-- Ends a pass: the directory is checked, and removed if anything failed. -/
def close (plan : FramePlan κ γ) (s : FramePass κ γ) : FramePass κ γ :=
  let failure := s.failure.or (checkFiles plan (s.directory.getD []))
  { s with closed := true, failure, directory := if failure.isSome then none else s.directory }

/-- What a pass does at an event. An event that cannot happen changes nothing: a frame is begun
once, its steps follow each other, frames are collected until one fails or the listener raises, and
only a frame that is not begun is given up. -/
def step (plan : FramePlan κ γ) (s : FramePass κ γ) (event : FrameEvent) : FramePass κ γ :=
  match event with
  | .look n => if n < plan.total ∧ (s.workOf n).isNone then s.look plan n else s
  | .draw n =>
    match s.workOf n with
    | some .absent => s.draw plan n
    | _ => s
  | .keep n =>
    match s.workOf n with
    | some (.drawn data) => s.keep plan n data
    | _ => s
  | .write n =>
    match s.workOf n with
    | some (.ready data) => s.write plan n data
    | _ => s
  | .breakOff n reason => if s.isActive n then s.setWork n (.failed (.worker reason)) else s
  | .collect n =>
    if !s.closed ∧ s.failure.isNone ∧ !s.collected.contains n then s.collect plan n else s
  | .drop n =>
    if !s.closed ∧ s.isAbandoned ∧ n < plan.total ∧ (s.workOf n).isNone then s.setWork n .dropped
    else s
  | .cancel => { s with cancelled := true }
  | .close => if s.mayClose plan then s.close plan else s

/-- A pass after a list of events. -/
def run (plan : FramePlan κ γ) (s : FramePass κ γ) (events : List FrameEvent) : FramePass κ γ :=
  events.foldl (step plan) s

/-- The events of a pass that draws one frame after another, unless it gives them up. -/
def inOrder (total : Nat) : List FrameEvent :=
  ((List.range total).flatMap fun n =>
    [.drop n, .look n, .draw n, .keep n, .write n, .collect n]) ++ [.close]

end FramePass

end TimelineExport
