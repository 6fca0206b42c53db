import TimelineExport.Client.Fault
import TimelineExport.Files.Content
import TimelineExport.Timeline.Element

/-!
# A client of the server

`ApiClient` asks a server for exports: it starts one, looks at its state, cancels it, lists the
jobs, finds out where a finished file is, and saves that file. Each request gives the network
behind it along with its result.
-/

namespace TimelineExport

/-- A client of the server at an address. An empty key is not sent. -/
structure ApiClient where
  base : Address
  apiKey : String := ""

/-- A saved file: its size or why it was not saved; what was told on the way, namely how many
bytes had arrived and how many there are, if that is known; and the network and the files
afterwards. -/
structure SavedFile (γ : Type) where
  result : Except ClientFault Nat
  reports : List (Nat × Option Int) := []
  network : Network γ
  files : FileTree γ

/-- The most bytes that are written to a file at a time. -/
def saveUnit : Nat := 1048576

/-- Whether a response is a success. -/
def Response.isSuccess {γ : Type} (r : Response γ) : Bool := 200 ≤ r.status && r.status < 300

/-- How many bytes have been written after each piece, when so many bytes arrive. The rest that
does not fill a piece is written if the body is complete. -/
def writtenAfter (size : Nat) (complete : Bool) : List Nat :=
  (List.range (size / saveUnit)).map (fun i => (i + 1) * saveUnit) ++
    if complete && size % saveUnit ≠ 0 then [size] else []

namespace ApiClient

variable {γ : Type}

/-- A request of the client. A path is seen from the base. -/
def request (c : ApiClient) (urls : UrlLibrary) (method path : String)
    (body : Option Json := none) : Except ClientFault Request :=
  match urls.read c.base path with
  | .error reason => .error (.fetch (.address reason))
  | .ok address => .ok { method, address, apiKey := nonEmpty (some c.apiKey), body }

/-- The complete answer to a request, whatever its status is. -/
def send (c : ApiClient) (n : Network γ) (method path : String) (body : Option Json := none) :
    Except ClientFault (Response γ) × Network γ :=
  match c.request n.urls method path body with
  | .error fault => (.error fault, n)
  | .ok r =>
    match n.askOnce r with
    | (.error fault, n) => (.error (.fetch fault), n)
    | (.ok answer, n) =>
      match answer.broken with
      | some reason => (.error (.fetch (.transport .reading reason)), n)
      | none => (.ok answer, n)

/-- The JSON that a request brings, which is a success. -/
def fetchJson (c : ApiClient) (n : Network γ) (method path : String) (body : Option Json := none) :
    Except ClientFault Json × Network γ :=
  let (answer, n) := c.send n method path body
  (do
    let r ← answer
    if !r.isSuccess then throw (.status r.status)
    match r.json with
    | some v => return v
    | none => throw .notJson, n)

/-- A member of the JSON that a request brings. -/
def fetchMember (c : ApiClient) (n : Network γ) (method path name : String)
    (body : Option Json := none) : Except ClientFault Json × Network γ :=
  let (v, n) := c.fetchJson n method path body
  (v.bind fun v => (v.member name).mapError .shape, n)

/-- Starts an export and gives its id. -/
def startExport (c : ApiClient) (n : Network γ) (clips tracks : Json)
    (settings policy : Option Json) : Except ClientFault Json × Network γ :=
  let optional (name : String) (v : Option Json) := (v.map fun v => (name, v)).toList
  c.fetchMember n "POST" "/api/export/start" "jobId" (some (.object
    ([("clips", clips), ("tracks", tracks)] ++ optional "exportSettings" settings ++
      optional "assetPolicy" policy)))

/-- The state of a job. -/
def jobStatus (c : ApiClient) (n : Network γ) (id : String) :
    Except ClientFault Json × Network γ :=
  c.fetchMember n "GET" ("/api/export/status/" ++ id) "job"

/-- Asks that a job be cancelled. -/
def cancelExport (c : ApiClient) (n : Network γ) (id : String) :
    Except ClientFault Json × Network γ :=
  c.fetchJson n "DELETE" ("/api/export/cancel/" ++ id)

/-- The jobs. -/
def listJobs (c : ApiClient) (n : Network γ) : Except ClientFault Json × Network γ :=
  c.fetchMember n "GET" "/api/export/jobs" "jobs"

/-- Where the file of a finished job is: where the server redirects to. -/
def downloadUrl (c : ApiClient) (n : Network γ) (id : String) :
    Except ClientFault String × Network γ :=
  let (answer, n) := c.send n "GET" ("/api/export/download/" ++ id)
  (do
    let r ← answer
    if r.status ≠ 307 then throw (.status r.status)
    match r.headers.lookup "location" with
    | some url => return url
    | none => throw (.shape (.missing "location")), n)

/-- The number of bytes that a response announces. -/
def announcedSize (r : Response γ) : Except ClientFault (Option Int) :=
  match r.headers.lookup "content-length" with
  | none => .ok none
  | some text =>
    match Numeral.readInt? text with
    | some size => .ok (some size)
    | none => .error (.shape (.notInteger text))

/-- Writes the body of a response to a file, and tells what was written after each piece. -/
def writeBody [FileContent γ] (files : FileTree γ) (cwd : Place) (path : String)
    (r : Response γ) : Except ClientFault (FileTree γ × List (Nat × Option Int)) := do
  if !r.isSuccess then throw (.status r.status)
  let total ← announcedSize r
  let body := FileContent.join r.chunks
  let written := writtenAfter (FileContent.size body) r.broken.isNone
  let content := FileContent.take (written.getLast?.getD 0) body
  let files ← (files.write (resolvePath cwd path) path content).mapError .files
  return (files, written.map fun size => (size, total))

/-- Saves what is at an address, or at a path of the server. -/
def download [FileContent γ] (c : ApiClient) (n : Network γ) (files : FileTree γ) (cwd : Place)
    (url path : String) : SavedFile γ :=
  match c.request n.urls "GET" url with
  | .error fault => { result := .error fault, network := n, files }
  | .ok request =>
    match n.follow request with
    | (.error fault, network) => { result := .error (.fetch fault), network, files }
    | (.ok answer, network) =>
      match writeBody files cwd path answer with
      | .error fault => { result := .error fault, network, files }
      | .ok (files, reports) =>
        { reports, network, files
          result := match answer.broken with
            | some reason => .error (.fetch (.transport .reading reason))
            | none => .ok ((reports.getLast?.map (·.1)).getD 0) }

end ApiClient

end TimelineExport
