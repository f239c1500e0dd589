import ModerationService.Kafka.KafkaClient

/-!
# Service — requests going out, results coming back

`service/service.cpp`: `ProcessModerationRequest` rebuilds a request for the broker, and the callback
registered with the Kafka client turns a verdict into a stored record.
-/

namespace ModerationService
namespace Service

open Library Kafka

/-- The fields of a `ModerationService`; its repository answers through `Answers.save`. -/
structure Fields where
  kafkaClient_ : KafkaClient

/-! ## Requests -/

/-- Only the id and the text are set in the request that goes to the broker. -/
def processModerationRequest (pb : Protobuf) (service : Fields) (answers : Answers)
    (request_id : Int64) (text : StdString) : Program Bool := do
  try
    if text.isEmpty || request_id == 0 then
      logError .kService (.grpc .invalidArgument)
      pure false
    else
      -- `set_id` and `set_text`; `set_type` is never called
      let kafka_request : ModerateObjectRequest := { id := request_id, text := text }
      let sent ← service.kafkaClient_.sendRequestAsync pb answers kafka_request
      if !sent then
        logError .kKafka (.named "SEND_REQUEST_FAIL")
        pure false
      else
        pure true
  catch _ =>
    logError .kService (.grpc .internal)
    pure false

/-! ## Results -/

/-- `IModerationRepository::SaveModerationResult`; the event records the call. -/
def saveModerationResult (answers : Answers) (record : ModerationRecord) : Program Bool := do
  Traced.emit (.saveModerationResult record)
  match answers.save with
  | .returns saved => return saved
  | .throws e => throw e

def saveResultToDatabase (answers : Answers) (object_id : Int64) (text : StdString)
    (is_flagged : Bool) (reason : String) (object_type : ObjectType) : Program Unit := do
  let record : ModerationRecord :=
    { object_id, object_type, text, is_flagged, moderated_at := answers.now, reason }
  let saved ← saveModerationResult answers record
  if !saved then
    logError .kRepository (.named "SAVE_RESULT_FAIL")

def violationReason : String := "Violates content policy"

def handleModerationResult (answers : Answers) (response : ModerateObjectResponse)
    (request_id : Int64) (originalText : StdString) (objectType : ObjectType) : Program Unit := do
  try
    let isFlagged := response.success
    if isFlagged then
      saveResultToDatabase answers request_id originalText isFlagged violationReason objectType
  catch _ =>
    logError .kService (.named "HANDLE_RESULT_FAIL")

/-- The callback of `InitializeKafkaCallback`. -/
def resultCallback : MessageCallback :=
  fun answers response request_id originalText object_type => do
    try
      if answers.serviceAlive then
        handleModerationResult answers response request_id originalText object_type
      else
        logError .kService (.named "SERVICE_EXPIRED")
    catch _ =>
      logError .kKafka (.named "KAFKA_CALLBACK_FAIL")

end Service
end ModerationService
