import TimelineExport.Files.Tree
import TimelineExport.Json.Reader
import TimelineExport.Json.Shape
import TimelineExport.Net.Network

/-!
# Faults of a client

What can go wrong when a client asks the server: there is no answer, the answer refuses, its body
is no JSON, or the JSON has another shape than expected.
-/

namespace TimelineExport

/-- Why a client has no result. -/
inductive ClientFault where
  | fetch (fault : FetchFault)
  /-- The server answers with a status that is no success. -/
  | status (code : Nat)
  | notJson
  | shape (fault : ShapeFault)
  | files (fault : FileFault)
  deriving Repr

/-- What a reader is told about a fault; a status speaks for itself. -/
def ClientFault.message : ClientFault → String
  | fetch fault => fault.message
  | status code => "HTTP " ++ toString code
  | notJson => Json.ReadFault.message "" ⟨0, .value⟩
  | shape fault => fault.message
  | files fault => fault.message

end TimelineExport
