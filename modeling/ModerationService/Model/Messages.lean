import ModerationService.Library.Traced
import ModerationService.Service.TextProcessor

/-!
# Messages — protobuf messages, records, and what the service does to the outside

The messages of `moderation.proto` (a submodule whose generated code is the parameter `Protobuf`),
the record the repository stores, the events the service causes, and the answers it gets from the
broker, the repository and the clock.
-/

namespace ModerationService

open Library TextProcessor

/-! ## Protobuf -/

/-- `moderation::ObjectType`; an open enumeration holds any 32-bit value. -/
abbrev ObjectType := Int32

/-- `OBJECT_TYPE_UNSPECIFIED`. -/
def objectTypeUnspecified : ObjectType := 0

/-- `moderation::ModerateObjectRequest`; a field that is never set keeps its default. -/
structure ModerateObjectRequest where
  id : Int64 := 0
  text : StdString := []
  type : ObjectType := objectTypeUnspecified
  deriving DecidableEq

/-- `moderation::ModerateObjectResponse`. -/
structure ModerateObjectResponse where
  success : Bool := false
  deriving DecidableEq

/-- The code generated from `moderation.proto`; `none` is a `false` of `SerializeToString` or
`ParseFromArray`. -/
structure Protobuf where
  serializeRequest : ModerateObjectRequest → Option StdString
  parseRequest : StdString → Option ModerateObjectRequest
  serializeResponse : ModerateObjectResponse → Option StdString
  objectTypeIsValid : ObjectType → Bool

/-- Parsing undoes serialising. -/
structure Protobuf.RoundTrips (pb : Protobuf) : Prop where
  parse_serialize : ∀ request bytes,
    pb.serializeRequest request = some bytes → pb.parseRequest bytes = some request

/-! ## Records -/

/-- `std::chrono::system_clock::time_point`, in ticks. -/
abbrev TimePoint := Int

structure ModerationRecord where
  object_id : Int64
  object_type : ObjectType
  text : StdString
  is_flagged : Bool
  moderated_at : TimePoint
  reason : String
  deriving DecidableEq

/-! ## Events and answers -/

/-- `RdKafka::ErrorCode`. -/
abbrev ErrorCode := Int

def errNoError : ErrorCode := 0
def errPartitionEof : ErrorCode := -191
def errTimedOut : ErrorCode := -185

/-- `grpc::StatusCode`, as far as the service uses it. -/
inductive StatusCode where
  | ok
  | invalidArgument
  | internal
  deriving DecidableEq, Repr

inductive Subsystem where
  | kAlgorithm
  | kGrpc
  | kKafka
  | kRepository
  | kService
  deriving DecidableEq, Repr

/-- The code of a log line: a name, or an error code of Kafka or gRPC. -/
inductive LogCode where
  | named (name : String)
  | kafka (error : ErrorCode)
  | grpc (status : StatusCode)
  deriving DecidableEq, Repr

/-- A message that `produce` has taken. -/
structure ProducedMessage where
  topic : StdString
  payload : StdString
  key : StdString
  deriving DecidableEq

/-- What the service does to the outside, and the two calls whose arguments matter. -/
inductive Event where
  | produced (message : ProducedMessage)
  | sendResponseAsync (response : ModerateObjectResponse) (topic key : StdString)
  | saveModerationResult (record : ModerationRecord)
  | logError (subsystem : Subsystem) (code : LogCode)
  deriving DecidableEq

/-- How a call of `IModerationRepository::SaveModerationResult` ends. -/
inductive SaveOutcome where
  | returns (saved : Bool)
  | throws (e : StdException)
  deriving DecidableEq, Repr

/-- What the outside answers while one message or one request is handled. -/
structure Answers where
  /-- the code of `RdKafka::Producer::produce` -/
  produce : ErrorCode
  /-- the stage of text processing that throws, if any -/
  fault : Stage → Option StdException
  save : SaveOutcome
  /-- whether `weak_ptr::lock` still finds the service -/
  serviceAlive : Bool
  now : TimePoint
  /-- the bytes from the address on that `RdKafka::Message::key` returns, which is that of a
  `std::string` -/
  keyObject : Nat → UInt8

abbrev Program := Traced StdException Event

def logError (subsystem : Subsystem) (code : LogCode) : Program Unit :=
  Traced.emit (.logError subsystem code)

end ModerationService
