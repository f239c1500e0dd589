import ModerationService.Service.Service

/-!
# Handler — the gRPC entry point

`handler/handler.cpp`.
-/

namespace ModerationService
namespace Handler

open Library Service

/-- `grpc::Status`. -/
structure Status where
  code : StatusCode
  message : String := ""
  deriving DecidableEq

def Status.OK : Status := { code := .ok }

/-- The status of the call and the response message. -/
def moderateObject (pb : Protobuf) (service_ : Fields) (answers : Answers)
    (request : ModerateObjectRequest) : Program (Status × ModerateObjectResponse) := do
  if request.text.isEmpty || request.id == 0 then
    logError .kGrpc (.grpc .invalidArgument)
    return (⟨.invalidArgument, "Invalid moderation request"⟩, { success := false })
  let requestId := request.id
  let text := request.text
  let success ← processModerationRequest pb service_ answers requestId text
  if !success then
    logError .kGrpc (.grpc .internal)
    return (⟨.internal, "Failed to process moderation request"⟩, { success := false })
  return (Status.OK, { success := true })

end Handler
end ModerationService
