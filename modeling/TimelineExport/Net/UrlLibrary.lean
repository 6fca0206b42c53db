import TimelineExport.Net.Address
import TimelineExport.Net.Percent
import TimelineExport.Number.Numeral

/-!
# A URL library to run on

`Address.read` brings a URL into the form in which it is requested: the scheme and the host are in
lower case, the default port is left out, dots in the path are resolved, and characters that may not
stand in a part are written with percent signs. `Address.below` sees an address from a base, and
`Address.redirect` follows a reference from an address.
-/

namespace TimelineExport

/-- Why a text is no address. -/
inductive AddressFault where
  | tooLong
  /-- There is a control character at an index. -/
  | controlCharacter (c : Char) (index : Nat)
  | badPort (port : String)
  | badDottedHost (host : String)
  | badColonHost (host : String)
  /-- There is a host, and the path does not begin with a slash. -/
  | detachedPath
  /-- There is no host, and the path begins with two slashes. -/
  | hostlessPath
  /-- There is no scheme, and the path begins with a colon. -/
  | colonPath
  deriving DecidableEq, Repr

/-- What a reader is told about a text that is no address. -/
def AddressFault.message : AddressFault → String
  | tooLong => "URL too long"
  | controlCharacter c index =>
    "Invalid non-printable ASCII character in URL, " ++ quoted (String.singleton c) ++
      " at position " ++ toString index ++ "."
  | badPort port => "Invalid port: " ++ quoted port
  | badDottedHost host => "Invalid IPv4 address: " ++ quoted host
  | badColonHost host => "Invalid IPv6 address: " ++ quoted host
  | detachedPath => "For absolute URLs, path must be empty or begin with '/'"
  | hostlessPath => "Relative URLs cannot have a path starting with '//'"
  | colonPath => "Relative URLs cannot have a path starting with ':'"

namespace Address

/-- The port of a scheme that need not be written. -/
def defaultPort? : String → Option Int
  | "ftp" => some 21
  | "http" | "ws" => some 80
  | "https" | "wss" => some 443
  | _ => none

/-- Resolves the segments `.` and `..`. -/
def resolveDots (segments : List String) : List String :=
  segments.foldl (fun out segment =>
    if segment = "." then out
    else if segment = ".." then (if out = [] ∨ out = [""] then out else out.dropLast)
    else out ++ [segment]) []

/-- The path of an address with a host. -/
def tidyPath (path : List Char) : List Char :=
  let segments := (partsBy (· = '/') path).map String.ofList
  if segments.any fun s => s = "." || s = ".." then ("/".intercalate (resolveDots segments)).toList
  else path

/-- Splits a text at the first place of a character, if it occurs. -/
def splitFirst (mark : Char) (cs : List Char) : List Char × Option (List Char) :=
  match cs.span (· ≠ mark) with
  | (before, []) => (before, none)
  | (before, _ :: behind) => (before, some behind)

/-- Splits off a scheme; a colon at the very start is an empty one. -/
def splitScheme (cs : List Char) : List Char × List Char :=
  match cs.span (· ≠ ':') with
  | (name, _ :: rest) =>
    let named := match name with
      | [] => true
      | first :: _ => first.isAlpha &&
          name.all fun c => c.isAlphanum || c = '+' || c = '-' || c = '.'
    if named then (name.map Char.toLower, rest) else ([], cs)
  | _ => ([], cs)

/-- Splits an authority into the user, the host and the port. -/
def splitAuthority (cs : List Char) : List Char × List Char × List Char :=
  let behind := (cs.reverse.takeWhile (· ≠ '@')).reverse
  let user := if cs.contains '@' then cs.take (cs.length - behind.length - 1) else []
  let afterBracket := (behind.reverse.takeWhile (· ≠ ']')).reverse
  let (host, rest) :=
    if behind.head? = some '[' && behind.contains ']' then
      (behind.take (behind.length - afterBracket.length), afterBracket)
    else behind.span (· ≠ ':')
  (user, host, if rest.head? = some ':' then rest.drop 1 else rest)

/-- Whether a host looks like four numbers with something between them. -/
def looksDotted (host : List Char) : Bool :=
  let groups := (partsBy (fun c => !c.isDigit) host)
  groups.length = 4 && groups.all (!·.isEmpty)

/-- The host in the form in which it is requested. -/
def tidyHost (host : List Char) : Except AddressFault (List Char) :=
  if looksDotted host then
    if isDottedAddress host then .ok host else .error (.badDottedHost (String.ofList host))
  else if host.head? = some '[' && host.getLast? = some ']' then
    let inner := (host.drop 1).dropLast
    if isColonAddress inner then .ok inner else .error (.badColonHost (String.ofList host))
  else
    .ok (percentEncode (fun c => isUnreserved c || "!$&'()*+,;=\"`\x7b\x7d%|\\".toList.contains c ||
      0x80 ≤ c.toNat) (host.map Char.toLower))

/-- The port in the form in which it is requested. -/
def tidyPort (scheme : String) (port : List Char) : Except AddressFault (Option Int) :=
  if port = [] then .ok none
  else
    match Numeral.readInt? (String.ofList port) with
    | none => .error (.badPort (String.ofList port))
    | some n => .ok (if some n = defaultPort? scheme then none else some n)

/-- What is wrong with a path beside a scheme and a host. -/
def pathFault (hasScheme hasHost : Bool) (path : List Char) : Option AddressFault :=
  if hasHost then
    if path ≠ [] ∧ path.head? ≠ some '/' then some .detachedPath else none
  else if hasScheme then none
  else if ['/', '/'].isPrefixOf path then some .hostlessPath
  else if path.head? = some ':' then some .colonPath
  else none

/-- Checks the parts of an address and brings them into form. -/
def ofParts (scheme user host port path : List Char) (query fragment : Option (List Char)) :
    Except AddressFault Address := do
  let name := String.ofList scheme
  let host ← tidyHost host
  let port ← tidyPort name port
  let hasHost := user ≠ [] || host ≠ [] || port.isSome
  match pathFault (name ≠ "") hasHost path with
  | some fault => throw fault
  | none =>
    let path := if name ≠ "" || hasHost then tidyPath path else path
    return {
      scheme := name
      user := String.ofList (percentEncode (fun c => isUnreserved c || c = ':') user)
      host := String.ofList host, port
      path := String.ofList (percentEncode (isPrintableExcept " \"#<>?`\x7b\x7d") path)
      query := query.map (String.ofList ∘ percentEncode (isPrintableExcept " \"#<>"))
      fragment := fragment.map (String.ofList ∘ percentEncode (isPrintableExcept " \"<>`")) }

/-- Reads an address. -/
def read (url : String) : Except AddressFault Address :=
  let cs := url.toList
  if 65536 < cs.length then .error .tooLong
  else
    match cs.findIdx? fun c => c.toNat < 0x20 || c.toNat = 0x7f with
    | some index => .error (.controlCharacter (cs.getD index ' ') index)
    | none =>
      let (scheme, rest) := splitScheme cs
      let (authority, rest) := match rest with
        | '/' :: '/' :: rest => rest.span fun c => c ≠ '/' && c ≠ '?' && c ≠ '#'
        | _ => ([], rest)
      let (rest, fragment) := splitFirst '#' rest
      let (path, query) := splitFirst '?' rest
      let (user, host, port) := splitAuthority authority
      ofParts scheme user host port path query fragment

/-- An address at a base: one without a host is a path below the base's. -/
def below (base : Address) (a : Address) : Address :=
  if a.isAbsolute then a
  else
    let place := if base.path.endsWith "/" then base.path else base.path ++ "/"
    let path := place.toList ++ a.path.toList.dropWhile (· = '/')
    { base with path := String.ofList (if base.isAbsolute then tidyPath path else path)
                query := a.query, fragment := none }

/-- Follows the segments of a path: `..` goes up, and a dot at the end leaves a slash. -/
def followSegments (segments : List String) : List String :=
  let out := segments.foldl (fun out segment =>
    if segment = ".." then out.dropLast
    else if segment = "." then out
    else out ++ [segment]) []
  if segments.getLast? = some "." ∨ segments.getLast? = some ".." then out ++ [""] else out

/-- The path that a path leads to from another one. -/
def joinPaths (base path : String) : String :=
  let given := path.splitOn "/"
  let segments :=
    if path.startsWith "/" then given
    else
      let parts := base.splitOn "/"
      let parts := if parts.getLast? = some "" then parts else parts.dropLast
      let all := parts ++ given
      all.take 1 ++ ((all.drop 1).dropLast.filter (· ≠ "")) ++ (all.drop 1).getLast?.toList
  let joined := "/".intercalate (followSegments segments)
  if joined = "" then "/" else joined

/-- The address that a reference leads to from an address. -/
def join (base a : Address) : Address :=
  if a.scheme ≠ "" ∧ a.scheme ≠ base.scheme then a
  else if a.authority ≠ "" then { a with scheme := base.scheme }
  else if a.path = "" then
    { base with query := a.query.or base.query, fragment := a.fragment }
  else { base with path := joinPaths base.path a.path, query := a.query, fragment := a.fragment }

/-- The address that a redirect with a location leads to. A location with a scheme and without a
host keeps the host, and then its path has to begin with a slash. -/
def redirect (base : Address) (location : String) : Except RedirectFault Address := do
  let a ← (read location).mapError fun fault => .unreadable fault.message
  let a ←
    if a.scheme ≠ "" && a.host = "" then
      match pathFault true (base.host ≠ "") a.path.toList with
      | some fault => throw (.detached fault.message)
      | none => pure { a with host := base.host }
    else pure a
  let a := if a.isAbsolute then a else base.join a
  return { a with fragment := a.fragment.or base.fragment }

end Address

/-- The library that is there to run on. -/
def UrlLibrary.standard : UrlLibrary where
  read base text := ((Address.read text).map base.below).mapError AddressFault.message
  redirect := Address.redirect

end TimelineExport
