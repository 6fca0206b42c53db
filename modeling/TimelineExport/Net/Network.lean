import TimelineExport.Json.Value
import TimelineExport.Net.UrlLibrary

/-!
# A scripted network

A network is given by what it answers: to each address, or to a method at an address, a list of
answers that are used in turn, the last one again and again. Whoever asks is logged. Since the
answers are arbitrary, what is shown of every such network holds of any network that a run can
meet.

A network comes with the library by which URLs are read. `Network.follow` asks and follows redirects.
-/

namespace TimelineExport

/-- An answer to a request: a status, headers with names in lower case, and a body in chunks
that may break off. A body that is JSON has its value as well. -/
structure Response (γ : Type) where
  status : Nat := 200
  headers : List (String × String) := []
  chunks : List γ := []
  /-- Why the body breaks off after its chunks, if it does. -/
  broken : Option String := none
  json : Option Json := none

/-- The ways in which a connection fails. -/
inductive TransportSort where
  | connection
  | timeout
  | reading
  | protocol
  deriving DecidableEq, Repr

/-- Why there is no answer. -/
inductive FetchFault where
  | transport (sort : TransportSort) (reason : String)
  | tooManyRedirects
  /-- A text is no URL. -/
  | address (reason : String)
  deriving DecidableEq, Repr

/-- What a reader is told when there is no answer. -/
def FetchFault.message : FetchFault → String
  | transport _ reason => reason
  | tooManyRedirects => "Exceeded maximum allowed redirects."
  | address reason => reason

/-- A request. -/
structure Request where
  method : String := "GET"
  address : Address
  apiKey : Option String := none
  body : Option Json := none

/-- What an address answers. -/
inductive NetworkAnswer (γ : Type) where
  | response (r : Response γ)
  | transport (sort : TransportSort) (reason : String)

/-- A network: the answers by address, or by method and address, and the requests so far. -/
structure Network (γ : Type) where
  urls : UrlLibrary := .standard
  answers : List (String × List (NetworkAnswer γ)) := []
  requests : List Request := []

/-- The greatest number of redirects that are followed. -/
def maxRedirects : Nat := 20

namespace Network

variable {γ : Type}

/-- The script for a request: that for its method, or else that for its address alone. -/
def scriptName (n : Network γ) (r : Request) : String :=
  let url := r.address.text
  let name := r.method ++ " " ++ url
  if n.answers.any (·.1 = name) then name else url

/-- The next answer of a script and what is left of it; the last answer stays. -/
def takeAnswer : List (NetworkAnswer γ) → NetworkAnswer γ × List (NetworkAnswer γ)
  | [] => (.response { status := 404 }, [])
  | [a] => (a, [a])
  | a :: rest => (a, rest)

/-- Sends a request. -/
def ask (n : Network γ) (r : Request) : NetworkAnswer γ × Network γ :=
  let name := n.scriptName r
  let (answer, rest) := takeAnswer ((n.answers.lookup name).getD [])
  (answer,
    { n with
      answers := n.answers.map fun s => if s.1 = name then (name, rest) else s
      requests := n.requests ++ [r] })

/-- The address that a response leads to, if it is a redirect. -/
def redirect? (urls : UrlLibrary) (r : Request) (response : Response γ) :
    Option (Except FetchFault Address) :=
  if [301, 302, 303, 307, 308].contains response.status then
    (response.headers.lookup "location").map fun location =>
      (urls.redirect r.address location).mapError fun
        | .unreadable reason =>
          .transport .protocol ("Invalid URL in location header: " ++ reason ++ ".")
        | .detached reason => .address reason
  else none

/-- The method with which a redirect is followed. -/
def redirectMethod (status : Nat) (method : String) : String :=
  if status = 303 ∧ method ≠ "HEAD" then "GET"
  else if status = 302 ∧ method ≠ "HEAD" then "GET"
  else if status = 301 ∧ method = "POST" then "GET"
  else method

/-- Sends a request and follows redirects, so many of them at most. -/
def followFrom : Nat → Network γ → Request → Except FetchFault (Response γ) × Network γ
  | 0, n, _ => (.error .tooManyRedirects, n)
  | left + 1, n, r =>
    match n.ask r with
    | (.transport sort reason, n) => (.error (.transport sort reason), n)
    | (.response response, n) =>
      match redirect? n.urls r response with
      | none => (.ok response, n)
      | some (.error fault) => (.error fault, n)
      | some (.ok address) =>
        match response.broken with
        | some reason => (.error (.transport .reading reason), n)
        | none =>
          let method := redirectMethod response.status r.method
          followFrom left n
            { r with method, address, body := if method = r.method then r.body else none }

/-- Sends a request and follows redirects. -/
def follow (n : Network γ) (r : Request) : Except FetchFault (Response γ) × Network γ :=
  followFrom (maxRedirects + 1) n r

/-- Sends a request without following redirects; a location still has to make sense. -/
def askOnce (n : Network γ) (r : Request) : Except FetchFault (Response γ) × Network γ :=
  match n.ask r with
  | (.transport sort reason, n) => (.error (.transport sort reason), n)
  | (.response response, n) =>
    match redirect? n.urls r response with
    | some (.error fault) => (.error fault, n)
    | _ => (.ok response, n)

end Network

end TimelineExport
