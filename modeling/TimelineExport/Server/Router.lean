import TimelineExport.Json.Reader
import TimelineExport.Net.UrlLibrary
import TimelineExport.Server.Framework

/-!
# A framework to run on

`WebFramework.standard` matches paths, reads bodies that are said to be JSON, and lets browsers in
from the configured origins. Files are given out whole. Of the pages that a framework has itself, it
gives out those that it is told of.
-/

namespace TimelineExport

/-- A request; names of headers are in lower case. -/
structure HttpRequest where
  method : String
  address : Address
  headers : List (String × String) := []
  body : String := ""

/-- The reason that belongs to a status. -/
def reasonPhrase : Nat → String
  | 400 => "Bad Request"
  | 401 => "Unauthorized"
  | 403 => "Forbidden"
  | 404 => "Not Found"
  | 405 => "Method Not Allowed"
  | 408 => "Request Timeout"
  | 409 => "Conflict"
  | 410 => "Gone"
  | 413 => "Content Too Large"
  | 415 => "Unsupported Media Type"
  | 418 => "I'm a Teapot"
  | 422 => "Unprocessable Content"
  | 425 => "Too Early"
  | 429 => "Too Many Requests"
  | 500 => "Internal Server Error"
  | 501 => "Not Implemented"
  | 502 => "Bad Gateway"
  | 503 => "Service Unavailable"
  | 504 => "Gateway Timeout"
  | 507 => "Insufficient Storage"
  | _ => ""

mutual

/-- Whether all numbers of a value are finite. Others are not written as JSON. -/
def Json.isFinite : Json → Bool
  | .float x => x.isFinite
  | .array items => Json.areFinite items
  | .object members => Json.membersAreFinite members
  | _ => true

/-- Whether all numbers of some values are finite. -/
def Json.areFinite : List Json → Bool
  | [] => true
  | v :: vs => v.isFinite && Json.areFinite vs

/-- Whether all numbers of the values of some members are finite. -/
def Json.membersAreFinite : List (String × Json) → Bool
  | [] => true
  | (_, v) :: ms => v.isFinite && Json.membersAreFinite ms

end

namespace HttpAnswer

/-- A text as an answer. -/
def ofText (s : String) (status : Nat) : HttpAnswer :=
  { status, headers := [("content-type", "text/plain; charset=utf-8")], body := .text s }

/-- A detail and nothing else. -/
def ofDetail (status : Nat) (detail : String) (headers : List (String × String)) : HttpAnswer :=
  let a := ofJson (.object [("detail", .text detail)]) status
  { a with headers := a.headers ++ headers }

end HttpAnswer

namespace Endpoint

/-- A text of one line; a line break at its end does not count. -/
def line? (text : String) : Option String :=
  match text.toList.span (· ≠ '\n') with
  | (line, []) | (line, ['\n']) => some (String.ofList line)
  | _ => none

/-- The endpoint at a path. A line break at the end of a path does not count, unless it belongs to
the id of a job. -/
def ofPath? (path : String) : Option Endpoint :=
  match path.splitOn "/" with
  | ["", "health"] | ["", "health\n"] => some .health
  | ["", "api", "export", "start"] | ["", "api", "export", "start\n"] => some .start
  | ["", "api", "export", "jobs"] | ["", "api", "export", "jobs\n"] => some .jobs
  | "" :: "api" :: "export" :: "files" :: first :: rest =>
    (line? ("/".intercalate (first :: rest))).map .file
  | ["", "api", "export", verb, id] =>
    if id = "" then none
    else
      match verb with
      | "status" => some (.status id)
      | "cancel" => some (.cancel id)
      | "download" => some (.download id)
      | _ => none
  | _ => none

/-- The path that differs by a slash at the end. -/
def otherPath (path : String) : String :=
  if path.endsWith "/" then
    String.ofList (path.toList.reverse.dropWhile (· = '/')).reverse
  else path ++ "/"

end Endpoint

namespace HttpRequest

/-- A header. -/
def header? (r : HttpRequest) (name : String) : Option String := r.headers.lookup name

/-- Whether the body is said to be JSON. -/
def isJson (r : HttpRequest) : Bool :=
  match r.header? "content-type" with
  | none => false
  | some type =>
    let name := (trimText ((type.splitOn ";").headD "")).toLower
    match name.splitOn "/" with
    | ["application", sub] => sub = "json" || sub.endsWith "+json"
    | _ => false

/-- The value that the body holds. A text that may be JSON but cannot be read is no fault of the
body. -/
def bodyValue (r : HttpRequest) : Except HttpFault Json :=
  let missing := HttpFault.requestInvalid [(["body"], Fault.missing.message)]
  if r.body = "" then .error missing
  else if !r.isJson then .ok (.text r.body)
  else
    match Json.read r.body with
    | .error fault =>
      if fault.isOverlong then
        .error (.frameworkError 400 "There was an error parsing the body" [])
      else .error (.requestInvalid [(["body", toString fault.offset], "JSON decode error")])
    | .ok .null => .error missing
    | .ok v => .ok v

end HttpRequest

namespace WebFramework

/-- How a URL is written in a header. -/
def locationText (url : String) : String :=
  String.ofList (percentEncode (fun c => isUnreserved c ||
    ":/%#?=@[]!$&'()*+,;".toList.contains c) url.toList)

/-- Whether browsers are let in from everywhere. -/
def admitsAll (origins : List Json) : Bool := origins.any fun | .text o => o = "*" | _ => false

/-- Whether browsers are let in from an origin. -/
def admits (origins : List Json) (origin : String) : Bool :=
  admitsAll origins || origins.any fun | .text o => o = origin | _ => false

/-- The methods that a browser may ask for. -/
def browserMethods : List String := ["DELETE", "GET", "HEAD", "OPTIONS", "PATCH", "POST", "PUT"]

/-- The header for a browser. -/
def originHeader (origin : String) : List (String × String) :=
  [("access-control-allow-origin", origin)]

/-- The answer to a browser that asks what it may do. -/
def preflight (origins : List Json) (origin method : String) : HttpAnswer :=
  let refused := (if admits origins origin then [] else ["origin"]) ++
    (if browserMethods.contains method then [] else ["method"])
  let a := if refused.isEmpty then .ofText "OK" 200
    else HttpAnswer.ofText ("Disallowed CORS " ++ ", ".intercalate refused) 400
  if admits origins origin then { a with headers := a.headers ++ originHeader origin } else a

/-- The headers of an answer to a browser. Where all are let in, only one that sends its cookies is
told so by name. -/
def browserHeaders (origins : List Json) (r : HttpRequest) : List (String × String) :=
  match r.header? "origin" with
  | none => []
  | some origin =>
    if admitsAll origins && (r.header? "cookie").isNone then originHeader "*"
    else if admits origins origin then originHeader origin
    else []

/-- What a request comes to by its path. -/
def route (pages : List (String × HttpAnswer)) (origins : List Json) (r : HttpRequest) :
    Reception :=
  let path := percentDecode r.address.path
  let notAllowed (allow : String) : Reception :=
    .raised (.frameworkError 405 (reasonPhrase 405) [("allow", allow)])
  let found (path : String) : Bool :=
    (pages.lookup path).isSome || (Endpoint.ofPath? path).isSome
  match pages.lookup path, Endpoint.ofPath? path with
  | some page, _ =>
    if r.method = "GET" || r.method = "HEAD" then
      .answered { page with headers := page.headers ++ browserHeaders origins r }
    else notAllowed "GET, HEAD"
  | none, some e => if r.method = e.method then .endpoint e else notAllowed e.method
  | none, none =>
    if path ≠ "/" && found (Endpoint.otherPath path) then
      let place := { r.address with path := Endpoint.otherPath path, fragment := none }
      let a := HttpAnswer.redirect (locationText place.text)
      .answered { a with headers := a.headers ++ browserHeaders origins r }
    else .raised (.frameworkError 404 (reasonPhrase 404) [])

/-- A framework that has some pages itself. -/
def standard (pages : List (String × HttpAnswer) := []) : WebFramework HttpRequest where
  receive origins r :=
    match r.method, r.header? "origin", r.header? "access-control-request-method" with
    | "OPTIONS", some origin, some method => .answered (preflight origins origin method)
    | _, _, _ => route pages origins r
  bodyValue := HttpRequest.bodyValue
  location := locationText
  giveFile _ type _ size := { headers := [("content-type", type)], body := .bytes size }
  ownAnswer := .ofDetail
  headers := browserHeaders
  writes := Json.isFinite

end WebFramework

end TimelineExport
