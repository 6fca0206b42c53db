import TimelineExport.Net.Host
import TimelineExport.Text.Quoted

/-!
# Sources as URLs

The source of an element is a path or a URL. `SourceUrl.read` takes from it what decides how it
is fetched: the scheme, empty for a plain path, and the path. The text is read as leniently as
it was probably meant: leading blanks and control characters are dropped, and so are tabs and
line breaks anywhere. Only a host that makes no sense is refused.
-/

namespace TimelineExport

/-- Why a source is no URL. -/
inductive UrlFault where
  /-- A bracket around a host is missing. -/
  | unbalancedBrackets
  /-- A host in brackets begins with `v` and is no address of a future version. -/
  | futureAddress
  /-- A dotted address stands in brackets. -/
  | dottedInBrackets
  /-- A host in brackets is no address. -/
  | notAddress (host : String)
  /-- A host has a character that is equivalent to a separator. -/
  | equivalentSeparator (host : String)
  deriving DecidableEq, Repr

/-- What a reader is told about a source that is no URL. -/
def UrlFault.message : UrlFault → String
  | unbalancedBrackets => "Invalid IPv6 URL"
  | futureAddress => "IPvFuture address is invalid"
  | dottedInBrackets => "An IPv4 address cannot be in brackets"
  | notAddress host => quoted host ++ " does not appear to be an IPv4 or IPv6 address"
  | equivalentSeparator host =>
    "netloc '" ++ host ++ "' contains invalid characters under NFKC normalization"

/-- What decides how a source is fetched. -/
structure SourceUrl where
  scheme : String
  path : String
  deriving DecidableEq, Repr

namespace SourceUrl

/-- Whether a character may stand in a scheme. -/
def isSchemeChar (c : Char) : Bool := c.isAlphanum || c = '+' || c = '-' || c = '.'

/-- Splits off a scheme, if there is one. -/
def splitScheme (cs : List Char) : String × List Char :=
  let (name, rest) := cs.span (· ≠ ':')
  match name, rest with
  | first :: _, _ :: rest =>
    if first.isAlpha && name.all isSchemeChar then (String.ofList (name.map Char.toLower), rest)
    else ("", cs)
  | _, _ => ("", cs)

/-- Splits off a host with its two slashes, if there is one. -/
def splitHost : List Char → List Char × List Char
  | '/' :: '/' :: rest => rest.span fun c => c ≠ '/' && c ≠ '?' && c ≠ '#'
  | cs => ([], cs)

/-- The characters that are equivalent to a text with a separator of URLs in it. -/
def separatorLike : List Nat :=
  [0x2047, 0x2048, 0x2049, 0x2100, 0x2101, 0x2105, 0x2106, 0x2a74, 0xfe13, 0xfe16, 0xfe55, 0xfe56,
    0xfe5f, 0xfe6b, 0xff03, 0xff0f, 0xff1a, 0xff1f, 0xff20]

/-- What is wrong with the brackets of a host. -/
def bracketFault (host : List Char) : Option UrlFault :=
  if host.contains '[' ≠ host.contains ']' then some .unbalancedBrackets
  else if !host.contains '[' then none
  else
    let inner := ((host.dropWhile (· ≠ '[')).drop 1).takeWhile (· ≠ ']')
    match inner with
    | 'v' :: rest =>
      let (version, tail) := rest.span isHexDigit
      if version.isEmpty || tail.head? ≠ some '.' || tail.length < 2 then some .futureAddress
      else none
    | _ =>
      if isDottedAddress inner then some .dottedInBrackets
      else if isColonAddress inner then none
      else some (.notAddress (String.ofList inner))

/-- What is wrong with a host. -/
def hostFault (host : List Char) : Option UrlFault :=
  (bracketFault host).or <|
    if host.any fun c => separatorLike.contains c.toNat then
      some (.equivalentSeparator (String.ofList host))
    else none

/-- The schemes whose paths may end with parameters. -/
def parameterSchemes : List String :=
  ["", "ftp", "hdl", "prospero", "http", "imap", "https", "shttp", "rtsp", "rtspu", "sip", "sips",
    "mms", "sftp", "tel"]

/-- A path without the parameters of its last segment. -/
def dropParameters (path : List Char) : List Char :=
  let last := (path.reverse.takeWhile (· ≠ '/')).reverse
  path.take (path.length - last.length) ++ last.takeWhile (· ≠ ';')

/-- Reads a source. -/
def read (source : String) : Except UrlFault SourceUrl :=
  let cs := (source.toList.dropWhile fun c => c.toNat ≤ 0x20).filter fun c =>
    c ≠ '\t' && c ≠ '\r' && c ≠ '\n'
  let (scheme, rest) := splitScheme cs
  let (host, rest) := splitHost rest
  match hostFault host with
  | some fault => .error fault
  | none =>
    let path := (rest.takeWhile (· ≠ '#')).takeWhile (· ≠ '?')
    let path := if parameterSchemes.contains scheme then dropParameters path else path
    .ok { scheme, path := String.ofList path }

end SourceUrl

end TimelineExport
