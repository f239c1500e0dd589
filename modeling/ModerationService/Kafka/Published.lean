import ModerationService.Handler.EndToEnd
import ModerationService.Kafka.KeyRoundTrip

/-!
# Published — the messages the consumer writes

`Intake` says what the consumer hands to `SendResponseAsync`; here is what reaches the broker.  An
accepted message is answered on the result topic, under its id and with the verdict on its text,
unless the response cannot be serialised or the broker refuses it, and nothing else is written.
-/

namespace ModerationService
namespace Published

open Library Library.Traced TextProcessor Kafka Kafka.KafkaConsumer Service Intake EndToEnd
  KeyRoundTrip

/-- What one call of `SendResponseAsync` writes. -/
def written (pb : Protobuf) (answers : Answers) (response : ModerateObjectResponse)
    (topic key : StdString) : List ProducedMessage :=
  match pb.serializeResponse response with
  | some payload =>
      if topic ≠ [] ∧ answers.produce = errNoError then [⟨topic, payload, key⟩] else []
  | none => []

/-- The messages that answer a message. -/
def published (pb : Protobuf) (icu : Icu) (consumer : KafkaConsumer) (answers : Answers) :
    Option (Int64 × ModerateObjectRequest) → List ProducedMessage
  | none => []
  | some (request_id, request) =>
      written pb answers { success := textProcessing icu request.text }
        consumer.config_.result_topic (StdLib.toString request_id)

section Specs

variable (pb : Protobuf) (icu : Icu) (answers : Answers)

theorem sendResponseAsync_produces {producer : KafkaProducer} (hproducer : producer.producer_ = true)
    (response : ModerateObjectResponse) (topic key : StdString) :
    ∃ sent, Ends produced (producer.sendResponseAsync pb answers response topic key) (.ok sent)
      (written pb answers response topic key) := by
  unfold KafkaProducer.sendResponseAsync written
  have hcall : Ends produced (emit (.sendResponseAsync response topic key) : Program Unit) (.ok ())
      [] :=
    Ends.emit_unseen rfl
  simp only [hproducer, Bool.not_true, Bool.false_eq_true, if_false]
  cases topic with
  | nil =>
      refine ⟨false, ?_⟩
      cases pb.serializeResponse response with
      | none => exact hcall.bind (logError_produces _ _ false)
      | some payload => exact hcall.bind (logError_produces _ _ false)
  | cons b bs =>
      simp only [List.isEmpty_cons, Bool.false_eq_true, if_false, ne_eq, List.cons_ne_nil,
        not_false_eq_true, true_and]
      cases pb.serializeResponse response with
      | none =>
          exact ⟨false, hcall.bind (logError_produces _ _ false)⟩
      | some payload =>
          have hproduce := produce_produces answers (b :: bs) payload key
          by_cases herror : answers.produce = errNoError
          · rw [if_pos herror] at hproduce
            simp only [if_pos herror]
            refine ⟨true, hcall.bind (hproduce.bind ?_)⟩
            rw [if_neg (not_not.2 herror)]
            exact Ends.pure true
          · rw [if_neg herror] at hproduce
            simp only [if_neg herror]
            refine ⟨false, hcall.bind (hproduce.bind ?_)⟩
            rw [if_pos herror]
            exact logError_produces _ _ false

theorem respond_produces {consumer : KafkaConsumer} {producer_ : KafkaProducer}
    (hsome : consumer.producer_ = some producer_) (hproducer : producer_.producer_ = true)
    (response : ModerateObjectResponse) (request_id : Int64) :
    Ends produced (respond pb consumer answers response request_id) (.ok ())
      (written pb answers response consumer.config_.result_topic (StdLib.toString request_id)) := by
  rcases sendResponseAsync_produces pb answers hproducer response consumer.config_.result_topic
    (StdLib.toString request_id) with ⟨sent, hsent⟩
  unfold respond
  rw [hsome, ← List.append_nil (written _ _ _ _ _)]
  refine hsent.bind ?_
  cases sent with
  | false =>
      exact Ends.emit_unseen rfl
  | true =>
      exact Ends.pure ()

/-- A key that is turned down is logged, and nothing is written. -/
theorem requestId_produces (message : RdKafkaMessage) :
    Ends produced (requestId answers message) (.ok (keyId (keyStr answers message))) [] := by
  rcases requestId_cases answers message with ⟨id, hid, haccepted⟩ | ⟨hnone, code, _, hrejected⟩
  · rw [haccepted, hid]
    exact Ends.pure _
  · rw [hrejected, hnone]
    exact logError_produces _ _ none

theorem flagged_produces (text : StdString) :
    Ends produced (flagged icu answers text)
      (.ok (tryTextProcessing icu answers.fault text).toOption) [] := by
  cases hresult : tryTextProcessing icu answers.fault text with
  | error e =>
      rw [flagged_error icu answers hresult]
      exact logError_produces _ _ none
  | ok isFlagged =>
      rw [flagged_ok icu answers hresult]
      exact Ends.pure _

/-- The callback writes no message: it would be one under every key. -/
theorem resultCallback_produces (response : ModerateObjectResponse) (request_id : Int64)
    (text : StdString) (object_type : ObjectType) :
    Ends produced (resultCallback answers response request_id text object_type) (.ok ()) [] := by
  refine ⟨(resultCallback_ends answers response request_id text object_type).result, ?_⟩
  rw [List.filterMap_eq_nil_iff]
  intro event hevent
  cases event with
  | produced message =>
      have hkeyed : Only (Keyed (0 :: message.key))
          (resultCallback answers response request_id text object_type) :=
        resultCallback_keyed answers response request_id text object_type
      have hkey : message.key = 0 :: message.key := hkeyed _ hevent message.key rfl
      exact absurd hkey (List.cons_ne_self 0 message.key).symm
  | sendResponseAsync _ _ _ => rfl
  | saveModerationResult _ => rfl
  | logError _ _ => rfl

theorem processMessage_produces {consumer : KafkaConsumer} {producer_ : KafkaProducer}
    (hsome : consumer.producer_ = some producer_) (hproducer : producer_.producer_ = true)
    (hcallback : consumer.callback_ = some resultCallback) (message : RdKafkaMessage) :
    Ends produced (processMessage pb icu consumer answers message) (.ok ())
      (published pb icu consumer answers (accepted pb icu answers message)) := by
  unfold processMessage processPayload accepted acceptedUnder
  -- one case for each of the early returns, in the order of the source
  refine (requestId_produces answers message).bind ?_
  cases keyId (keyStr answers message) with
  | none =>
      exact Ends.pure ()
  | some request_id =>
      cases pb.parseRequest message.payload with
      | none =>
          exact Ends.emit_unseen rfl
      | some request =>
          cases hvalid : pb.objectTypeIsValid request.type with
          | false =>
              have hrejected := logError_produces .kKafka (.named "INVALID_OBJECT_TYPE") ()
              simpa [hvalid, published] using hrejected
          | true =>
              simp only [hvalid, Bool.not_true, Bool.false_eq_true, if_false, true_and]
              by_cases hspecified : request.type = objectTypeUnspecified
              · rw [if_pos hspecified, if_neg (fun h => h.1 hspecified)]
                exact logError_produces _ _ ()
              · rw [if_neg hspecified]
                refine (flagged_produces icu answers request.text).bind ?_
                cases hverdict : tryTextProcessing icu answers.fault request.text with
                | error e =>
                    rw [if_neg (fun h => Bool.false_ne_true h.2)]
                    exact Ends.pure ()
                | ok isFlagged =>
                    rw [if_pos ⟨hspecified, rfl⟩, (tryTextProcessing_eq_ok hverdict).2]
                    simp only [hcallback]
                    rw [← List.append_nil (written _ _ _ _ _)]
                    refine (respond_produces pb answers hsome hproducer _ request_id).bind ?_
                    exact resultCallback_produces answers _ request_id request.text request.type

theorem consumeOnce_produces {consumer : KafkaConsumer} {producer_ : KafkaProducer}
    (hsome : consumer.producer_ = some producer_) (hproducer : producer_.producer_ = true)
    (hcallback : consumer.callback_ = some resultCallback) (poll : Poll) :
    Ends produced (consumeOnce pb icu consumer poll) (.ok ())
      (published pb icu consumer poll.answers (pollAccepted pb icu poll)) := by
  unfold consumeOnce pollAccepted
  cases poll.message with
  | none =>
      exact Ends.pure ()
  | some message =>
      by_cases hmessage : message.err = errNoError
      · simp only [hmessage, if_true]
        exact processMessage_produces pb icu poll.answers hsome hproducer hcallback message
      · simp only [hmessage, if_false]
        split_ifs
        · exact Ends.pure ()
        · exact Ends.pure ()
        · exact Ends.emit_unseen rfl

end Specs

end Published
end ModerationService
