import TimelineExport.Asset.Fault
import TimelineExport.Files.Content

/-!
# Downloads

A download is tried again after a failed connection or a status that says so. Each attempt writes
into a partial file, which takes the place of the target when the body is complete; it is removed
when the download ends, however it ends. So the target is either what one attempt has brought, or
as it was before.

`Download.step` says what happens at each event; after its end a download does not change.
-/

namespace TimelineExport

/-- The statuses after which a request is tried again. -/
def retryableStatuses : List Nat := [408, 425, 429, 500, 502, 503, 504]

/-- How far a download is. -/
inductive DownloadPhase (γ : Type) where
  | asking
  | receiving (chunks : List γ)
  | waiting
  | ended (result : Except AssetFault Unit)
  | cancelled

/-- What happens to a download. -/
inductive DownloadEvent (γ : Type) where
  | respond (status : Nat)
  | chunk (data : γ)
  | bodyEnd
  | fail (fault : FetchFault)
  /-- A wait is over. -/
  | wake
  | cancel

/-- A download: its attempts so far, the waits between them, the partial file and the target. -/
structure Download (α γ : Type) where
  url : String
  asked : Nat
  phase : DownloadPhase γ
  partialFile : Option γ := none
  target : Option γ := none
  waits : List α := []

namespace Download

section
variable {α γ : Type} [Scalar α] [FileContent γ]

/-- A download that begins; what is at the target already is given. -/
def start (policy : RetryPolicy α) (url : String) (target : Option γ) : Download α γ :=
  if policy.attempts ≤ 0 then
    { url, asked := 0, phase := .ended (.error .noAttempts), target }
  else { url, asked := 1, phase := .asking, target }

/-- Ends a download. -/
def finish (d : Download α γ) (result : Except AssetFault Unit) : Download α γ :=
  { d with phase := .ended result, partialFile := none }

/-- Waits for the next attempt, or ends if there is none. -/
def retry (policy : RetryPolicy α) (d : Download α γ) (reason : String) : Download α γ :=
  match policy.next (d.asked - 1) with
  | .wait wait => { d with phase := .waiting, waits := d.waits ++ [wait] }
  | .giveUp => d.finish (.error (.resolution (.asset d.url ("download failed: " ++ reason))))
  | .overflow => d.finish (.error .waitOverflow)

/-- Takes the status of an answer. -/
def respond (policy : RetryPolicy α) (d : Download α γ) (status : Nat) : Download α γ :=
  let reason := "HTTP " ++ toString status
  if retryableStatuses.contains status then d.retry policy reason
  else if 400 ≤ status then d.finish (.error (.resolution (.asset d.url reason)))
  else { d with phase := .receiving [], partialFile := some (FileContent.join []) }

/-- Takes a failure of the connection, or of the request itself. -/
def fail (policy : RetryPolicy α) (d : Download α γ) : FetchFault → Download α γ
  | .transport _ reason => d.retry policy reason
  | fault => d.finish (.error (.fetch fault))

/-- What happens at an event. -/
def step (policy : RetryPolicy α) (d : Download α γ) (event : DownloadEvent γ) : Download α γ :=
  match d.phase, event with
  | .ended _, _ | .cancelled, _ => d
  | _, .cancel => { d with phase := .cancelled, partialFile := none }
  | .asking, .respond status => d.respond policy status
  | .asking, .fail fault => d.fail policy fault
  | .receiving chunks, .chunk data =>
    let chunks := chunks ++ [data]
    { d with phase := .receiving chunks, partialFile := some (FileContent.join chunks) }
  | .receiving _, .fail fault => d.fail policy fault
  | .receiving chunks, .bodyEnd =>
    { d with target := some (FileContent.join chunks) }.finish (.ok ())
  | .waiting, .wake => { d with phase := .asking, asked := d.asked + 1 }
  | _, _ => d

/-- A download after a list of events. -/
def run (policy : RetryPolicy α) (d : Download α γ) (events : List (DownloadEvent γ)) :
    Download α γ :=
  events.foldl (step policy) d

/-- The events of an attempt that brings what a network has given. -/
def eventsOf : Except FetchFault (Response γ) → List (DownloadEvent γ)
  | .error fault => [.fail fault]
  | .ok r =>
    .respond r.status :: r.chunks.map .chunk ++
      [match r.broken with
        | some reason => .fail (.transport .reading reason)
        | none => .bodyEnd]

/-- Carries a download on in a network, for so many attempts. -/
def carryOn (policy : RetryPolicy α) (address : Address) :
    (attempts : Nat) → Download α γ → Network γ → Download α γ × Network γ
  | 0, d, n => (d, n)
  | attempts + 1, d, n =>
    match d.phase with
    | .asking | .waiting =>
      let d := d.step policy .wake
      let (answer, n) := n.follow { address }
      carryOn policy address attempts (d.run policy (eventsOf answer)) n
    | _ => (d, n)

/-- Downloads a URL in a network. -/
def fetch (policy : RetryPolicy α) (url : String) (target : Option γ) (n : Network γ) :
    Download α γ × Network γ :=
  let d := start policy url target
  match n.urls.read {} url with
  | .error reason => (d.step policy (.fail (.address reason)), n)
  | .ok address => carryOn policy address policy.attempts.toNat d n

end

end Download

end TimelineExport
