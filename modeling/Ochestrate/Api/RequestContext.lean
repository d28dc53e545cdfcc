import Ochestrate.Auth.Schemas
import Ochestrate.Schemas.Api

/-!
# Binding a request to its caller

`app/api/v1/request_context.py`: the identity of the access token replaces what
the client wrote into the request.
-/

namespace Ochestrate

/-- `bind_unified_request_auth`. -/
def bindUnifiedRequestAuth (request : UnifiedRequest) (auth : AuthContext) : UnifiedRequest :=
  { request with
    tenantId := some auth.tenantId
    userId := some auth.userId
    sessionId := auth.sessionId
    metadata := (request.metadata.set "role" (.str auth.role)).set "session_id" (.str auth.sessionId) }

/-- `bind_feedback_auth`. -/
def bindFeedbackAuth (request : FeedbackRequest) (auth : AuthContext) : FeedbackRequest :=
  { request with
    tenantId := some auth.tenantId
    userId := some auth.userId }

/-- `bind_ingest_auth`. -/
def bindIngestAuth (request : IngestTextRequest) (auth : AuthContext) : IngestTextRequest :=
  { request with tenantId := some auth.tenantId }

/-- Somebody with an access token. -/
def someCaller : AuthContext where
  tenantId := "acme"
  userId := "u1"
  role := "employee"
  sessionId := "s1"
  tokenExp := 0

end Ochestrate
