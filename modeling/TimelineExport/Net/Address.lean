/-!
# Addresses of requests

An `Address` is a URL in the form in which it is requested. How a text is read as one is the matter
of a library; `UrlLibrary` is what is used of it.
-/

namespace TimelineExport

/-- A URL in the form in which it is requested. -/
structure Address where
  scheme : String := ""
  user : String := ""
  host : String := ""
  port : Option Int := none
  path : String := ""
  query : Option String := none
  fragment : Option String := none
  deriving DecidableEq, Repr

namespace Address

/-- The host with its port, as it is written. -/
def authority (a : Address) : String :=
  (if a.user = "" then "" else a.user ++ "@") ++
    (if a.host.toList.contains ':' then "[" ++ a.host ++ "]" else a.host) ++
    (match a.port with
      | none => ""
      | some port => ":" ++ toString port)

/-- A part with the sign before it, if there is one. -/
def marked (mark : String) : Option String → String
  | none => ""
  | some part => mark ++ part

/-- The address as a text. -/
def text (a : Address) : String :=
  (if a.scheme = "" then "" else a.scheme ++ ":") ++
    (if a.authority = "" then "" else "//" ++ a.authority) ++ a.path ++ marked "?" a.query ++
    marked "#" a.fragment

/-- Whether the address names a host and how to speak to it. -/
def isAbsolute (a : Address) : Bool := a.scheme ≠ "" && a.host ≠ ""

end Address

/-- Why a redirect cannot be followed: its location is no URL, or it is one that leads nowhere. -/
inductive RedirectFault where
  | unreadable (reason : String)
  | detached (reason : String)
  deriving DecidableEq, Repr

/-- **A library for URLs.** It may refuse any text, and tells why. -/
structure UrlLibrary where
  /-- The address that a text names for a client with a base. -/
  read : Address → String → Except String Address
  /-- The address that a redirect with a location leads to. -/
  redirect : Address → String → Except RedirectFault Address

end TimelineExport
