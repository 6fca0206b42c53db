/-!
# Endpoints

What a server offers: starting an export, looking at it, cancelling it, listing all of them,
being redirected to a result, fetching a result, and asking whether the server is well.
-/

namespace TimelineExport

/-- What an application does for a request. -/
inductive Endpoint where
  | start
  | status (id : String)
  | cancel (id : String)
  | jobs
  | download (id : String)
  | file (key : String)
  | health
  deriving DecidableEq, Repr

/-- The method of an endpoint. -/
def Endpoint.method : Endpoint → String
  | start => "POST"
  | cancel _ => "DELETE"
  | _ => "GET"

end TimelineExport
