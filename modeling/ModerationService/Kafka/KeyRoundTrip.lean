import ModerationService.Kafka.Failures
import ModerationService.Kafka.MessageKey

/-!
# KeyRoundTrip — a request id on its way through a key and back

The producer prints the id of a request into the key of its message.  The consumer is to read it back
from there, and prints what it has read into the key of the response.  Printing and parsing undo each
other, but what the consumer parses are bytes of a string object (`roundTrips_iff`).
-/

namespace ModerationService
namespace KeyRoundTrip

open Library Library.Traced TextProcessor Kafka Kafka.KafkaConsumer Service Intake Failures
  MessageKey

/-! ## The keys a program writes -/

def eventKey : Event → Option StdString
  | .produced message => some message.key
  | .sendResponseAsync _ _ key => some key
  | .saveModerationResult _ => none
  | .logError _ _ => none

/-- A key that the event writes is `key`. -/
def Keyed (key : StdString) (event : Event) : Prop :=
  ∀ written ∈ eventKey event, written = key

section Specs

variable {key : StdString} (pb : Protobuf) (icu : Icu) (answers : Answers)

theorem logError_keyed (subsystem : Subsystem) (code : LogCode) :
    Only (Keyed key) (logError subsystem code) :=
  Only.emit (by simp [Keyed, eventKey])

theorem logError_then_keyed {α : Type} (subsystem : Subsystem) (code : LogCode) (a : α) :
    Only (Keyed key) (do logError subsystem code; return a) :=
  (logError_keyed subsystem code).bind (fun _ _ => Only.pure a)

theorem produce_keyed (topic payload : StdString) :
    Only (Keyed key) (KafkaProducer.produce answers topic payload key) := by
  unfold KafkaProducer.produce
  split_ifs
  · exact Only.bind (Only.emit (by simp [Keyed, eventKey])) (fun _ _ => Only.pure _)
  · exact Only.pure _

/-- The end of both send functions: an error of the broker is logged. -/
theorem sent_keyed (error : ErrorCode) :
    Only (Keyed key) (do
      if error ≠ errNoError then
        logError .kKafka (.kafka error)
        return false
      return true) := by
  split_ifs
  · exact logError_then_keyed _ _ false
  · exact Only.pure true

theorem sendRequestAsync_keyed (producer : KafkaProducer) (request : ModerateObjectRequest)
    (topic : StdString) :
    Only (Keyed (StdLib.toString request.id))
      (producer.sendRequestAsync pb answers request topic) := by
  unfold KafkaProducer.sendRequestAsync
  dsimp only
  generalize (if topic.isEmpty = true then producer.topic_name_ else topic) = target_topic
  split_ifs
  · exact logError_then_keyed _ _ false
  · exact logError_then_keyed _ _ false
  · cases pb.serializeRequest request with
    | none =>
        exact logError_then_keyed _ _ false
    | some payload =>
        exact (produce_keyed answers target_topic payload).bind (fun error _ => sent_keyed error)

theorem sendResponseAsync_keyed (producer : KafkaProducer) (response : ModerateObjectResponse)
    (topic : StdString) :
    Only (Keyed key) (producer.sendResponseAsync pb answers response topic key) := by
  unfold KafkaProducer.sendResponseAsync
  refine Only.bind (Only.emit (by simp [Keyed, eventKey])) (fun _ _ => ?_)
  split_ifs
  · exact logError_then_keyed _ _ false
  · exact logError_then_keyed _ _ false
  · cases pb.serializeResponse response with
    | none =>
        exact logError_then_keyed _ _ false
    | some payload =>
        exact (produce_keyed answers topic payload).bind (fun error _ => sent_keyed error)

theorem respond_keyed (consumer : KafkaConsumer) (response : ModerateObjectResponse)
    (request_id : Int64) :
    Only (Keyed (StdLib.toString request_id))
      (respond pb consumer answers response request_id) := by
  unfold respond
  cases consumer.producer_ with
  | none =>
      exact logError_keyed _ _
  | some producer_ =>
      refine (sendResponseAsync_keyed pb answers producer_ response _).bind (fun sent _ => ?_)
      cases sent with
      | false =>
          exact logError_keyed _ _
      | true =>
          exact Only.pure ()

/-- A request that can be serialised and that the broker takes is written under its id. -/
theorem sendRequestAsync_written {topic_name_ : StdString} (hname : topic_name_ ≠ [])
    {request : ModerateObjectRequest} {payload : StdString}
    (hpayload : pb.serializeRequest request = some payload)
    (hproduce : answers.produce = errNoError) (topic : StdString) :
    KafkaProducer.sendRequestAsync pb ⟨true, topic_name_⟩ answers request topic =
      ⟨.ok true, [.produced ⟨if topic.isEmpty then topic_name_ else topic, payload,
        StdLib.toString request.id⟩]⟩ := by
  have htarget : (if topic.isEmpty then topic_name_ else topic).isEmpty = false := by
    cases topic with
    | nil => simpa using hname
    | cons b bs => rfl
  have hname' : topic_name_.isEmpty = false := by
    simpa using hname
  unfold KafkaProducer.sendRequestAsync KafkaProducer.produce
  simp only [hname', htarget, hpayload, hproduce]
  rfl

theorem respond_returns (consumer : KafkaConsumer) (response : ModerateObjectResponse)
    (request_id : Int64) : (respond pb consumer answers response request_id).result = .ok () := by
  cases hproducer : consumer.producer_ with
  | none =>
      unfold respond
      rw [hproducer]
      rfl
  | some producer_ =>
      exact (respond_ends pb answers (by simp [hproducer]) response request_id).result

/-- So is a response. -/
theorem respond_written {consumer : KafkaConsumer} {topic_name_ : StdString}
    (hproducer : consumer.producer_ = some ⟨true, topic_name_⟩)
    (htopic : consumer.config_.result_topic ≠ []) {response : ModerateObjectResponse}
    {payload : StdString} (hpayload : pb.serializeResponse response = some payload)
    (hproduce : answers.produce = errNoError) (request_id : Int64) :
    .produced ⟨consumer.config_.result_topic, payload, StdLib.toString request_id⟩ ∈
      (respond pb consumer answers response request_id).trace := by
  have htopic' : consumer.config_.result_topic.isEmpty = false := by
    simpa using htopic
  unfold respond
  rw [hproducer]
  refine mem_trace_bind ?_ _
  unfold KafkaProducer.sendResponseAsync KafkaProducer.produce
  simp only [htopic', hpayload, hproduce]
  exact List.mem_cons_of_mem _ (List.mem_singleton_self _)

/-- The program writes no key but `key`, and ends, at most, with the callback of the consumer. -/
def OwnKeys (key : StdString) (consumer : KafkaConsumer) (answers : Answers) (request_id : Int64)
    (p : Program Unit) : Prop :=
  ∃ own called, p.trace = own ++ called ∧ (∀ event ∈ own, Keyed key event) ∧
    (called = [] ∨ ∃ callback_ ∈ consumer.callback_, ∃ response text object_type,
      called = (callback_ answers response request_id text object_type).trace)

theorem OwnKeys.of_only {consumer : KafkaConsumer} {request_id : Int64} {p : Program Unit}
    (h : Only (Keyed key) p) : OwnKeys key consumer answers request_id p :=
  ⟨p.trace, [], by simp, h, Or.inl rfl⟩

/-- Past the check of the key, every key written is the id printed. -/
theorem processPayload_ownKeys (consumer : KafkaConsumer) (message : RdKafkaMessage) (id : Int64) :
    OwnKeys (StdLib.toString id) consumer answers id
      (processPayload pb icu consumer answers message id) := by
  unfold processPayload
  cases pb.parseRequest message.payload with
  | none =>
      exact OwnKeys.of_only answers (logError_keyed _ _)
  | some request =>
      dsimp only
      split_ifs
      · exact OwnKeys.of_only answers (logError_then_keyed _ _ ())
      · exact OwnKeys.of_only answers (logError_then_keyed _ _ ())
      · cases hverdict : tryTextProcessing icu answers.fault request.text with
        | error e =>
            rw [flagged_error icu answers hverdict]
            exact OwnKeys.of_only answers (logError_then_keyed _ _ ())
        | ok isFlagged =>
            rw [bind_of_silent (flagged_ok icu answers hverdict)]
            -- the response has been handed over before the callback is called
            have hrespond : Only (Keyed (StdLib.toString id))
                (respond pb consumer answers { success := isFlagged } id) :=
              respond_keyed pb answers consumer _ id
            dsimp only
            rw [bind_of_ok (respond_returns pb answers consumer _ id)]
            refine ⟨_, _, rfl, hrespond, ?_⟩
            cases hsome : consumer.callback_ with
            | none =>
                exact Or.inl rfl
            | some callback_ =>
                exact Or.inr ⟨callback_, rfl, _, _, _, rfl⟩

theorem saveModerationResult_keyed (record : ModerationRecord) :
    Only (Keyed key) (saveModerationResult answers record) := by
  unfold saveModerationResult
  refine Only.bind (Only.emit (by simp [Keyed, eventKey])) (fun _ _ => ?_)
  cases answers.save with
  | returns saved =>
      exact Only.pure saved
  | throws e =>
      exact Only.throw e

theorem saveResultToDatabase_keyed (object_id : Int64) (text : StdString) (is_flagged : Bool)
    (reason : String) (object_type : ObjectType) :
    Only (Keyed key)
      (saveResultToDatabase answers object_id text is_flagged reason object_type) := by
  unfold saveResultToDatabase
  refine (saveModerationResult_keyed answers _).bind (fun saved _ => ?_)
  cases saved with
  | false =>
      exact logError_keyed _ _
  | true =>
      exact Only.pure ()

theorem resultCallback_keyed (response : ModerateObjectResponse) (request_id : Int64)
    (text : StdString) (object_type : ObjectType) :
    Only (Keyed key) (resultCallback answers response request_id text object_type) := by
  unfold resultCallback
  refine Only.tryCatch ?_ (fun _ => logError_keyed _ _)
  split_ifs
  · unfold handleModerationResult
    refine Only.tryCatch ?_ (fun _ => logError_keyed _ _)
    dsimp only
    split_ifs
    · exact saveResultToDatabase_keyed answers _ _ _ _ _
    · exact Only.pure ()
  · exact logError_keyed _ _

end Specs

/-! ## The round trip -/

theorem isNumeral_toString (id : Int64) : Decimal.IsNumeral (StdLib.toString id) id.toInt :=
  Decimal.isNumeral_signed id.toInt

theorem startsNumeric_toString (id : Int64) : startsNumeric (StdLib.toString id) = true := by
  have hstart : startsNumeric (StdLib.toString id ++ []) = true :=
    startsNumeric_of_isNumeral (isNumeral_toString id)
  simpa using hstart

/-- The key of a request survives the trip: the producer writes it, the check takes it, it is parsed
to the id it was printed from, the code goes on with that id, the response is written under the same
key and nothing under another, and no other id has this key. -/
structure RoundTrips (keyObject : Nat → UInt8) (id : Int64) : Prop where
  written : ∀ pb answers request topic_name_ topic payload, request.id = id → topic_name_ ≠ [] →
    pb.serializeRequest request = some payload → answers.produce = errNoError →
      KafkaProducer.sendRequestAsync pb ⟨true, topic_name_⟩ answers request topic =
        ⟨.ok true, [.produced ⟨if topic.isEmpty then topic_name_ else topic, payload,
          StdLib.toString id⟩]⟩
  onlyKey : ∀ pb producer answers request topic, request.id = id →
    Only (Keyed (StdLib.toString id))
      (KafkaProducer.sendRequestAsync pb producer answers request topic)
  passes : startsNumeric (StdLib.toString id) = true
  parses : StdLib.stoll (StdLib.toString id) = .ok id
  goesOn : ∀ pb icu consumer answers message, answers.keyObject = keyObject →
    message.key = some (StdLib.toString id) →
      processMessage pb icu consumer answers message =
        processPayload pb icu consumer answers message id
  answered : ∀ pb icu consumer answers message request producer_, answers.keyObject = keyObject →
    message.key = some (StdLib.toString id) → pb.parseRequest message.payload = some request →
    pb.objectTypeIsValid request.type = true → request.type ≠ objectTypeUnspecified →
    ¬ Throws answers.fault → consumer.producer_ = some producer_ →
      .sendResponseAsync { success := textProcessing icu request.text }
          consumer.config_.result_topic (StdLib.toString id) ∈
        (processMessage pb icu consumer answers message).trace ∧
      ∀ payload, producer_.producer_ = true → consumer.config_.result_topic ≠ [] →
        pb.serializeResponse { success := textProcessing icu request.text } = some payload →
        answers.produce = errNoError →
          .produced ⟨consumer.config_.result_topic, payload, StdLib.toString id⟩ ∈
            (processMessage pb icu consumer answers message).trace
  sameKey : ∀ pb icu consumer answers message, answers.keyObject = keyObject →
    message.key = some (StdLib.toString id) →
      OwnKeys (StdLib.toString id) consumer answers id
        (processMessage pb icu consumer answers message)
  apart : ∀ other, StdLib.toString other = StdLib.toString id → other = id

theorem keyId_keyStr_toString {answers : Answers} {message : RdKafkaMessage} {id : Int64}
    (hmessage : message.key = some (StdLib.toString id)) :
    keyId (keyStr answers message) = some id ↔
      NumeralInFront (bytesAt answers.keyObject (StdLib.toString id).length) id :=
  keyId_keyStr hmessage (isNumeral_toString id).ne_nil

/-- An accepted message is answered under the id that was read for its key. -/
theorem processMessage_answered {pb : Protobuf} {icu : Icu} {consumer : KafkaConsumer}
    {answers : Answers} {message : RdKafkaMessage} {id : Int64} {request : ModerateObjectRequest}
    {producer_ : KafkaProducer} (h : Admitted pb answers message id request)
    (hthrows : ¬ Throws answers.fault) (hproducer : consumer.producer_ = some producer_) :
    .sendResponseAsync { success := textProcessing icu request.text }
        consumer.config_.result_topic (StdLib.toString id) ∈
      (processMessage pb icu consumer answers message).trace ∧
    ∀ payload, producer_.producer_ = true → consumer.config_.result_topic ≠ [] →
      pb.serializeResponse { success := textProcessing icu request.text } = some payload →
      answers.produce = errNoError →
        .produced ⟨consumer.config_.result_topic, payload, StdLib.toString id⟩ ∈
          (processMessage pb icu consumer answers message).trace := by
  refine ⟨processMessage_sends icu consumer h hthrows hproducer, ?_⟩
  intro payload hinitialised htopic hpayload hproduce
  rcases producer_ with ⟨initialised, topic_name_⟩
  subst hinitialised
  rw [processMessage_returns icu consumer h hthrows]
  exact mem_trace_bind (respond_written pb answers hproducer htopic hpayload hproduce id) _

/-- The key of an id survives the trip exactly when the bytes read at the string object of the key
start with a numeral for the same id. -/
theorem roundTrips_iff (keyObject : Nat → UInt8) (id : Int64) :
    RoundTrips keyObject id ↔
      NumeralInFront (bytesAt keyObject (StdLib.toString id).length) id := by
  constructor
  · intro htrip
    have hid := keyId_of_goesOn (htrip.goesOn SampleProtobuf.sampleProtobuf SampleIcu.sampleIcu
      probeConsumer (probeAnswers keyObject) (probeMessage (StdLib.toString id)) rfl rfl)
    exact (keyId_keyStr_toString rfl).1 hid
  · intro hfront
    have hid : ∀ answers message, answers.keyObject = keyObject →
        message.key = some (StdLib.toString id) → keyId (keyStr answers message) = some id := by
      rintro answers message rfl hmessage
      exact (keyId_keyStr_toString hmessage).2 hfront
    refine ⟨?_, ?_, startsNumeric_toString id, StdLib.stoll_toString id, ?_, ?_, ?_, ?_⟩
    · rintro pb answers request topic_name_ topic payload rfl hname hpayload hproduce
      exact sendRequestAsync_written pb answers hname hpayload hproduce topic
    · rintro pb producer answers request topic rfl
      exact sendRequestAsync_keyed pb answers producer request topic
    · intro pb icu consumer answers message hobject hmessage
      exact processMessage_goesOn pb icu consumer (hid answers message hobject hmessage)
    · intro pb icu consumer answers message request producer_ hobject hmessage hparse hvalid
        hspecified hthrows hproducer
      exact processMessage_answered ⟨hid answers message hobject hmessage, hparse, hvalid,
        hspecified⟩ hthrows hproducer
    · intro pb icu consumer answers message hobject hmessage
      rw [processMessage_goesOn pb icu consumer (hid answers message hobject hmessage)]
      exact processPayload_ownKeys pb icu answers consumer message id
    · intro other h
      exact StdLib.toString_injective h

/-- The key `7` is turned down: its object starts with the byte 0x10. -/
theorem seven_turned_down :
    let keyObject := SampleProtobuf.sampleKeyObject (StdLib.toString 7)
    let message : RdKafkaMessage := ⟨errNoError, some (StdLib.toString 7),
      SampleProtobuf.encodeRequest { id := 7, text := [0x6F, 0x6B], type := 1 }⟩
    (processMessage SampleProtobuf.sampleProtobuf SampleIcu.sampleIcu sampleConsumer
      (probeAnswers keyObject) message).trace =
        [.logError .kKafka (.named "INVALID_KEY_FORMAT")] ∧
    ¬ RoundTrips keyObject 7 := by
  intro keyObject message
  refine ⟨by decide +kernel, ?_⟩
  intro htrip
  have hid := keyId_of_goesOn (htrip.goesOn SampleProtobuf.sampleProtobuf SampleIcu.sampleIcu
    probeConsumer (probeAnswers keyObject) (probeMessage (StdLib.toString 7)) rfl rfl)
  have hnone : keyId (keyStr (probeAnswers keyObject) (probeMessage (StdLib.toString 7))) = none := by
    decide +kernel
  rw [hnone] at hid
  cases hid

end KeyRoundTrip
end ModerationService
