import ModerationService.Model.Messages

/-!
# KafkaClient — the producer, the consumer and its loop

`kafka/kafkaclient.cpp`, as far as messages are concerned: sending a request, sending a response,
processing a consumed message, and the consume loop over the results of `consume`.
-/

namespace ModerationService
namespace Kafka

open Library TextProcessor

/-- The fields of `KafkaConfig` that name topics. -/
structure KafkaConfig where
  request_topic : StdString
  result_topic : StdString

/-! ## `KafkaProducer` -/

structure KafkaProducer where
  /-- whether the `RdKafka::Producer` exists -/
  producer_ : Bool
  topic_name_ : StdString

namespace KafkaProducer

/-- `RdKafka::Producer::produce`. -/
def produce (answers : Answers) (topic payload key : StdString) : Program ErrorCode := do
  if answers.produce = errNoError then
    Traced.emit (.produced ⟨topic, payload, key⟩)
  pure answers.produce

def sendRequestAsync (pb : Protobuf) (producer : KafkaProducer) (answers : Answers)
    (request : ModerateObjectRequest) (topic : StdString) : Program Bool := do
  if !producer.producer_ || producer.topic_name_.isEmpty then
    logError .kKafka (.named "PRODUCER_NOT_INITIALIZED")
    return false
  -- an empty topic stands for the topic the producer was built with
  let target_topic := if topic.isEmpty then producer.topic_name_ else topic
  if target_topic.isEmpty then
    logError .kKafka (.named "TOPIC_EMPTY")
    return false
  match pb.serializeRequest request with
  | none =>
      logError .kKafka (.named "SERIALIZE_REQUEST_FAIL")
      return false
  | some serializedRequest =>
      let key := StdLib.toString request.id
      let error ← produce answers target_topic serializedRequest key
      if error ≠ errNoError then
        logError .kKafka (.kafka error)
        return false
      return true

/-- The first event records the call itself. -/
def sendResponseAsync (pb : Protobuf) (producer : KafkaProducer) (answers : Answers)
    (response : ModerateObjectResponse) (topic key : StdString) : Program Bool := do
  Traced.emit (.sendResponseAsync response topic key)
  if !producer.producer_ then
    logError .kKafka (.named "PRODUCER_NOT_INITIALIZED")
    return false
  if topic.isEmpty then
    logError .kKafka (.named "TOPIC_EMPTY")
    return false
  match pb.serializeResponse response with
  | none =>
      logError .kKafka (.named "SERIALIZE_RESPONSE_FAIL")
      return false
  | some serializedResponse =>
      let error ← produce answers topic serializedResponse key
      if error ≠ errNoError then
        logError .kKafka (.kafka error)
        return false
      return true

end KafkaProducer

/-! ## `KafkaClient` -/

structure KafkaClient where
  config_ : KafkaConfig
  producer_ : Option KafkaProducer
  initialized_ : Bool

def KafkaClient.sendRequestAsync (pb : Protobuf) (client : KafkaClient) (answers : Answers)
    (request : ModerateObjectRequest) : Program Bool := do
  match client.initialized_, client.producer_ with
  | true, some producer_ =>
      producer_.sendRequestAsync pb answers request client.config_.request_topic
  | _, _ =>
      logError .kKafka (.named "NOT_INITIALIZED")
      return false

/-! ## `KafkaConsumer` -/

/-- `MessageCallback`: the response, the request id, the text and the object type. -/
abbrev MessageCallback :=
  Answers → ModerateObjectResponse → Int64 → StdString → ObjectType → Program Unit

structure KafkaConsumer where
  config_ : KafkaConfig
  callback_ : Option MessageCallback
  producer_ : Option KafkaProducer

/-- `RdKafka::Message`; a null key is `none`. -/
structure RdKafkaMessage where
  err : ErrorCode
  key : Option StdString
  payload : StdString
  deriving DecidableEq

namespace KafkaConsumer

/-- The first character of a numeric key: a digit or a sign. -/
def startsNumeric (key_str : StdString) : Bool :=
  !key_str.isEmpty &&
    (StdLib.isdigit (key_str.headD 0) || key_str.headD 0 == 0x2D || key_str.headD 0 == 0x2B)

/-- `count` bytes from an address on. -/
def bytesAt (object : Nat → UInt8) (count : Nat) : StdString :=
  (List.range count).map object

/-- What `ProcessMessage` takes for the key.  `RdKafka::Message::key` returns a `const std::string*`,
and the cast makes a `const char*` of it: `key_len` bytes are read, but those of a string object. -/
def keyStr (answers : Answers) (message : RdKafkaMessage) : Option StdString :=
  message.key.map (fun key => bytesAt answers.keyObject key.length)

/-- The request id of a message; `none` when `ProcessMessage` returns because of the key. -/
def requestId (answers : Answers) (message : RdKafkaMessage) : Program (Option Int64) := do
  match keyStr answers message with
  | some key_str =>
      -- a null key and an empty one leave the id at 0
      if 0 < key_str.length then
        if !startsNumeric key_str then
          logError .kKafka (.named "INVALID_KEY_FORMAT")
          return none
        try
          let request_id ← Traced.ofExcept (StdLib.stoll key_str)
          pure (some request_id)
        catch _ =>
          logError .kKafka (.named "PARSE_KEY_FAIL")
          pure none
      else
        return some 0
  | none =>
      return some 0

/-- The verdict on the text; `none` when `ProcessMessage` returns because text processing threw. -/
def flagged (icu : Icu) (answers : Answers) (text : StdString) : Program (Option Bool) := do
  try
    let isFlagged ← Traced.ofExcept (tryTextProcessing icu answers.fault text)
    pure (some isFlagged)
  catch _ =>
    logError .kAlgorithm (.named "TEXT_PROCESSING_FAIL")
    pure none

/-- The response goes to the result topic under the request id; a failure is logged. -/
def respond (pb : Protobuf) (consumer : KafkaConsumer) (answers : Answers)
    (response : ModerateObjectResponse) (request_id : Int64) : Program Unit := do
  match consumer.producer_ with
  | some producer_ =>
      let response_key := StdLib.toString request_id
      let sent ← producer_.sendResponseAsync pb answers response consumer.config_.result_topic
        response_key
      if !sent then
        logError .kKafka (.named "SEND_RESPONSE_FAIL")
  | none =>
      logError .kKafka (.named "PRODUCER_NOT_AVAILABLE")

/-- `ProcessMessage` past the check of the key. -/
def processPayload (pb : Protobuf) (icu : Icu) (consumer : KafkaConsumer) (answers : Answers)
    (message : RdKafkaMessage) (request_id : Int64) : Program Unit := do
  match pb.parseRequest message.payload with
  | none =>
      logError .kKafka (.named "PARSE_REQUEST_FAIL")
  | some request =>
  let object_type := request.type
  if !pb.objectTypeIsValid object_type then
    logError .kKafka (.named "INVALID_OBJECT_TYPE")
    return
  if object_type = objectTypeUnspecified then
    logError .kKafka (.named "UNSPECIFIED_OBJECT_TYPE")
    return
  match ← flagged icu answers request.text with
  | none => return
  | some isFlagged =>
  let response : ModerateObjectResponse := { success := isFlagged }
  respond pb consumer answers response request_id
  -- called whether or not the response was sent
  match consumer.callback_ with
  | some callback_ => callback_ answers response request_id request.text object_type
  | none => return

def processMessage (pb : Protobuf) (icu : Icu) (consumer : KafkaConsumer) (answers : Answers)
    (message : RdKafkaMessage) : Program Unit := do
  match ← requestId answers message with
  | none => return
  | some request_id => processPayload pb icu consumer answers message request_id

/-! ## `ConsumeLoop` -/

/-- One result of `consume`, null included, and what the outside answers while it is handled. -/
structure Poll where
  message : Option RdKafkaMessage
  answers : Answers

/-- The body of the loop. -/
def consumeOnce (pb : Protobuf) (icu : Icu) (consumer : KafkaConsumer) (poll : Poll) :
    Program Unit := do
  match poll.message with
  | none => return
  | some message =>
      if message.err = errNoError then
        processMessage pb icu consumer poll.answers message
      -- both are normal, and only the first is logged, at a verbose level
      else if message.err = errPartitionEof then
        return
      else if message.err = errTimedOut then
        return
      else
        logError .kKafka (.kafka message.err)

/-- The loop over the polls made while `running_` holds. -/
def consumeLoop (pb : Protobuf) (icu : Icu) (consumer : KafkaConsumer) (polls : List Poll) :
    Program Unit :=
  Traced.forEach polls (consumeOnce pb icu consumer)

end KafkaConsumer

end Kafka
end ModerationService
