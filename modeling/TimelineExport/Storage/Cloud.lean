import TimelineExport.Error.Basic

/-!
# Storage in a bucket

Results may be kept in a bucket of a cloud. The connection is made when it is first used. A
download URL is signed for some hours; on a machine that has no private key the signature is
asked for with the machine's account.

What the cloud does is a parameter: whether it refuses requests, which account the machine has,
and how a URL is signed.
-/

namespace TimelineExport

/-- What a signature is asked for. -/
structure SignRequest where
  key : String
  method : String := "GET"
  seconds : Int
  /-- The account of the machine and its token. -/
  account : Option (String × String)
  deriving DecidableEq, Repr

/-- A cloud: the account of the machine it runs on, why it refuses requests if it does, and how
it signs. -/
structure Cloud where
  account : Option (String × String) := none
  refusal : Option String := none
  sign : SignRequest → String

/-- What the cloud was asked to do. -/
inductive CloudCall where
  | connect (project : Option String)
  | bucket (name : String)
  | upload (key path : String) (contentType : Option String)
  deriving DecidableEq, Repr

/-- A bucket that may be in use: its objects, and what the cloud was asked. -/
structure BucketStorage where
  bucket : String
  project : String := ""
  objects : List String := []
  calls : List CloudCall := []
  deriving Repr

namespace BucketStorage

/-- Connects to the bucket when it is used for the first time. -/
def connected (s : BucketStorage) : BucketStorage :=
  if s.calls.isEmpty then
    { s with calls := [.connect (if s.project = "" then none else some s.project),
                       .bucket s.bucket] }
  else s

/-- Uploads a file and gives the URL of the object. -/
def upload (cloud : Cloud) (path key : String) (contentType : Option String)
    (s : BucketStorage) : Except ExportError String × BucketStorage :=
  let s := s.connected
  match cloud.refusal with
  | some reason => (.error (.storage ("Failed to upload " ++ key ++ ": " ++ reason)), s)
  | none =>
    (.ok ("https://storage.googleapis.com/" ++ s.bucket ++ "/" ++ key),
      { s with
        calls := s.calls ++ [.upload key path contentType]
        objects := if s.objects.contains key then s.objects else s.objects ++ [key] })

/-- Signs a download URL that is good for some hours. -/
def signedUrl (cloud : Cloud) (key : String) (hours : Int) (s : BucketStorage) :
    Except ExportError String × BucketStorage :=
  let s := s.connected
  match cloud.refusal with
  | some reason => (.error (.storage ("Failed to sign URL for " ++ key ++ ": " ++ reason)), s)
  | none => (.ok (cloud.sign { key, seconds := hours * 3600, account := cloud.account }), s)

/-- Removes an object; whether there was one. -/
def delete (key : String) (s : BucketStorage) : Bool × BucketStorage :=
  let s := s.connected
  (s.objects.contains key, { s with objects := s.objects.filter (· ≠ key) })

end BucketStorage

end TimelineExport
