import Slate.ClusterRecords
import Slate.Responses

/-! The request that adds a monitoring credential to the pool. -/

namespace Slate
open Library Handler

def metadataString (metadata : Json) (name what : String) : HandlerM String := do
  require (metadata.hasMember name) 400 ("Missing " ++ what ++ " in request")
  let value ← accessing (metadata.member name)
  require (some value.isString) 400 ("Incorrect type for " ++ what)
  accessing value.getCString

/-- The credential that the body of a request has. A text that is no document is parsed as null. -/
def requestedCredential (body : Json) : HandlerM S3Credential := do
  require (some !body.isNull) 400 "Invalid JSON in request body"
  require (body.hasMember "metadata") 400 "Missing metadata in request"
  let metadata ← accessing (body.member "metadata")
  require (some metadata.isObject) 400 "Incorrect type for metadata member"
  let accessKey ← metadataString metadata "accessKey" "access key"
  let secretKey ← metadataString metadata "secretKey" "secret key"
  let cred : S3Credential := { accessKey, secretKey }
  require (some (cred.accessKey ≠ "")) 400 "Empty access key in request"
  require (some (cred.secretKey ≠ "")) 400 "Empty secret key in request"
  return cred

/-- The handler. The user is the one the token belongs to. -/
def addMonitoringCredentialRequest (user : User) (body : Json) : HandlerM Response := do
  require (some (user.valid && user.admin)) 403 "User not authorized"
  let cred ← requestedCredential body
  let added ← onStore (addMonitoringCredential cred)
  require (some added) 500 "Storing monitoring credential failed"
  return { status := 200 }

end Slate
