import ModerationService.Handler.Handler
import ModerationService.Kafka.Intake

/-!
# EndToEnd — a gRPC request on its way through the broker

The handler answers OK exactly when one message has been produced for the request
(`moderateObject_ends`).  The service rebuilds the request for that message from its id and its text
alone, so its type reads back as unspecified, and the consumer rejects it: no accepted request is
ever moderated (`moderateObject_not_moderated`).
-/

namespace ModerationService
namespace EndToEnd

open Library Library.Traced TextProcessor Kafka Kafka.KafkaConsumer Service Intake Handler

/-! ## Sending a request -/

def produced : Event → Option ProducedMessage
  | .produced message => some message
  | .sendResponseAsync _ _ _ => none
  | .saveModerationResult _ => none
  | .logError _ _ => none

/-- The messages a program has produced, in order. -/
def messages {α : Type} (p : Program α) : List ProducedMessage :=
  p.trace.filterMap produced

/-- One message for the request when it was sent, and none otherwise. -/
def MessageFor (pb : Protobuf) (request : ModerateObjectRequest) (sent : Bool)
    (messages : List ProducedMessage) : Prop :=
  if sent then
    ∃ topic payload, pb.serializeRequest request = some payload ∧
      messages = [⟨topic, payload, StdLib.toString request.id⟩]
  else
    messages = []

section Sending

variable (pb : Protobuf) (answers : Answers) (request : ModerateObjectRequest)

theorem logError_produces {α : Type} (subsystem : Subsystem) (code : LogCode) (a : α) :
    Ends produced (do logError subsystem code; return a) (.ok a) [] :=
  Ends.bind (Ends.emit_unseen rfl) (Ends.pure a)

theorem not_sent (subsystem : Subsystem) (code : LogCode) :
    ∃ sent messages, Ends produced (do logError subsystem code; return false) (.ok sent) messages ∧
      MessageFor pb request sent messages :=
  ⟨false, [], logError_produces subsystem code false, rfl⟩

theorem produce_produces (topic payload key : StdString) :
    Ends produced (KafkaProducer.produce answers topic payload key) (.ok answers.produce)
      (if answers.produce = errNoError then [⟨topic, payload, key⟩] else []) := by
  unfold KafkaProducer.produce
  by_cases herror : answers.produce = errNoError
  · rw [if_pos herror, if_pos herror]
    have hemit : Ends produced (emit (.produced ⟨topic, payload, key⟩) : Program Unit) (.ok ())
        [⟨topic, payload, key⟩] :=
      Ends.emit_seen rfl
    exact hemit.bind (Ends.pure answers.produce)
  · rw [if_neg herror, if_neg herror]
    exact Ends.pure answers.produce

theorem producer_sendRequestAsync_ends (producer : KafkaProducer) (topic : StdString) :
    ∃ sent messages, Ends produced (producer.sendRequestAsync pb answers request topic) (.ok sent)
      messages ∧ MessageFor pb request sent messages := by
  unfold KafkaProducer.sendRequestAsync
  dsimp only
  generalize (if topic.isEmpty = true then producer.topic_name_ else topic) = target_topic
  split_ifs
  · exact not_sent pb request _ _
  · exact not_sent pb request _ _
  · cases hpayload : pb.serializeRequest request with
    | none =>
        exact not_sent pb request _ _
    | some payload =>
        have hproduce := produce_produces answers target_topic payload (StdLib.toString request.id)
        by_cases herror : answers.produce = errNoError
        · rw [if_pos herror] at hproduce
          -- the broker took the message
          refine ⟨true, _, hproduce.bind ?_, target_topic, payload, hpayload, rfl⟩
          rw [if_neg (not_not.2 herror)]
          exact Ends.pure true
        · rw [if_neg herror] at hproduce
          refine ⟨false, _, hproduce.bind ?_, rfl⟩
          rw [if_pos herror]
          exact logError_produces _ _ false

theorem client_sendRequestAsync_ends (client : KafkaClient) :
    ∃ sent messages, Ends produced (client.sendRequestAsync pb answers request) (.ok sent)
      messages ∧ MessageFor pb request sent messages := by
  unfold KafkaClient.sendRequestAsync
  cases client.initialized_ with
  | false =>
      exact not_sent pb request _ _
  | true =>
      cases client.producer_ with
      | none =>
          exact not_sent pb request _ _
      | some producer_ =>
          exact producer_sendRequestAsync_ends pb answers request producer_ _

/-- The message is for the rebuilt request, whose type was never set. -/
theorem processModerationRequest_ends (service : Fields) (request_id : Int64) (text : StdString) :
    ∃ sent messages,
      Ends produced (processModerationRequest pb service answers request_id text) (.ok sent)
        messages ∧
      MessageFor pb { id := request_id, text := text } sent messages := by
  unfold processModerationRequest
  split_ifs
  · exact ⟨false, [], (logError_produces _ _ false).tryCatch_ok _, rfl⟩
  · rcases client_sendRequestAsync_ends pb answers { id := request_id, text := text }
      service.kafkaClient_ with ⟨sent, messages, hsend, hmessage⟩
    refine ⟨sent, messages, Ends.tryCatch_ok ?_ _, hmessage⟩
    rw [← List.append_nil messages]
    refine hsend.bind ?_
    cases sent with
    | false =>
        exact logError_produces _ _ false
    | true =>
        exact Ends.pure true

/-- The handler answers OK exactly when a message has been produced. -/
theorem moderateObject_ends (service_ : Fields) :
    ∃ status response messages,
      Ends produced (moderateObject pb service_ answers request) (.ok (status, response)) messages ∧
      MessageFor pb { id := request.id, text := request.text } (decide (status.code = .ok))
        messages := by
  unfold moderateObject
  split_ifs
  · exact ⟨_, _, [], logError_produces _ _ _, rfl⟩
  · rcases processModerationRequest_ends pb answers service_ request.id request.text with
      ⟨sent, messages, hsend, hmessage⟩
    cases sent with
    | false =>
        refine ⟨⟨.internal, "Failed to process moderation request"⟩, { success := false }, messages,
          ?_, hmessage⟩
        rw [← List.append_nil messages]
        exact hsend.bind (logError_produces _ _ _)
    | true =>
        refine ⟨Status.OK, { success := true }, messages, ?_, hmessage⟩
        rw [← List.append_nil messages]
        exact hsend.bind (Ends.pure _)

end Sending

/-! ## Receiving it -/

/-- The message as the consumer receives it. -/
def delivered (message : ProducedMessage) : RdKafkaMessage :=
  { err := errNoError, key := some message.key, payload := message.payload }

/-- Exactly one response under the id of the request with the verdict on its text, and one record of
the request exactly when the verdict is true. -/
def Moderated (icu : Icu) (request : ModerateObjectRequest) (p : Program Unit) : Prop :=
  (responses p).map (fun sent => (sent.key, sent.response.success)) =
      [(StdLib.toString request.id, textProcessing icu request.text)] ∧
    (records p).map (fun record => (record.object_id, record.text, record.object_type)) =
      if textProcessing icu request.text then [(request.id, request.text, request.type)] else []

/-- A message whose type is unspecified causes no action, whatever its key and its callback. -/
theorem processMessage_unspecified (pb : Protobuf) (icu : Icu) (consumer : KafkaConsumer)
    (answers : Answers) {message : RdKafkaMessage} {request : ModerateObjectRequest}
    (hparse : pb.parseRequest message.payload = some request)
    (htype : request.type = objectTypeUnspecified) :
    Ends action (processMessage pb icu consumer answers message) (.ok ()) [] := by
  unfold processMessage processPayload
  refine (requestId_ends answers message).bind ?_
  cases keyId (keyStr answers message) with
  | none =>
      exact Ends.pure ()
  | some request_id =>
      simp only [hparse, htype]
      split_ifs
      · exact logError_then _ _ ()
      · exact logError_then _ _ ()

/-- No request is moderated: the handler answers OK only after producing one message, and that
message is rejected by every consumer. -/
theorem moderateObject_not_moderated {pb : Protobuf} (hpb : pb.RoundTrips) (icu : Icu)
    (service_ : Fields) (answers : Answers) (request : ModerateObjectRequest)
    {response : ModerateObjectResponse}
    (hok : (moderateObject pb service_ answers request).result = .ok (Status.OK, response)) :
    ∃ message, messages (moderateObject pb service_ answers request) = [message] ∧
      ∀ consumer answers',
        ¬ Moderated icu request (processMessage pb icu consumer answers' (delivered message)) := by
  rcases moderateObject_ends pb answers request service_ with ⟨status, response', sent, hends, hmessage⟩
  rw [hends.result] at hok
  have hstatus : status = Status.OK := congrArg Prod.fst (Except.ok.inj hok)
  subst hstatus
  rcases hmessage with ⟨topic, payload, hpayload, rfl⟩
  refine ⟨_, hends.observed, ?_⟩
  intro consumer answers' hmoderated
  -- the payload is the rebuilt request, so its type reads back as unspecified
  have hparse := hpb.parse_serialize _ _ hpayload
  have hnothing : Ends action (processMessage pb icu consumer answers'
      (delivered ⟨topic, payload, StdLib.toString request.id⟩)) (.ok ()) [] :=
    processMessage_unspecified pb icu consumer answers' hparse rfl
  have hresponses := hmoderated.1
  rw [responses, hnothing.observed] at hresponses
  cases hresponses

/-- A service whose Kafka client is initialised. -/
def sampleService : Fields where
  kafkaClient_ :=
    { config_ := { request_topic := [0x71], result_topic := [0x72] }
      producer_ := some { producer_ := true, topic_name_ := [0x71] }
      initialized_ := true }

/-- The object of the key `7` lies where its first byte is the digit 0. -/
def sampleAnswers : Answers :=
  ⟨errNoError, fun _ => none, .returns true, true, 0,
    SampleProtobuf.stringObject 0x5581A3C4D020 (StdLib.toString 7)⟩

/-- A flagged comment with the id 7. -/
def sampleRequest : ModerateObjectRequest where
  id := 7
  text := Utf8.encode ['g', 'a', 'y', ' ', 'g', 'a', 'y', ' ', 'g', 'a', 'y', ' ', 'g', 'a', 'y']
  type := 1

theorem moderateObject_not_moderated_sample :
    ∃ message, messages (moderateObject SampleProtobuf.sampleProtobuf sampleService sampleAnswers
        sampleRequest) = [message] ∧
      ∀ consumer answers', ¬ Moderated SampleIcu.sampleIcu sampleRequest
        (processMessage SampleProtobuf.sampleProtobuf SampleIcu.sampleIcu consumer answers'
          (delivered message)) :=
  moderateObject_not_moderated SampleProtobuf.sample_roundTrips SampleIcu.sampleIcu sampleService
    sampleAnswers sampleRequest rfl

/-- The text is flagged, the handler answers OK, and the consumer neither responds nor saves. -/
theorem sampleRequest_unmoderated :
    sampleRequest.id ≠ 0 ∧ sampleRequest.type ≠ objectTypeUnspecified ∧
    SampleProtobuf.sampleProtobuf.objectTypeIsValid sampleRequest.type = true ∧
    textProcessing SampleIcu.sampleIcu sampleRequest.text = true ∧
    (moderateObject SampleProtobuf.sampleProtobuf sampleService sampleAnswers sampleRequest).result =
      .ok (Status.OK, { success := true }) ∧
    messages (moderateObject SampleProtobuf.sampleProtobuf sampleService sampleAnswers
        sampleRequest) =
      [⟨[0x71], SampleProtobuf.encodeRequest { sampleRequest with type := 0 }, [0x37]⟩] ∧
    ¬ Moderated SampleIcu.sampleIcu sampleRequest
      (processMessage SampleProtobuf.sampleProtobuf SampleIcu.sampleIcu sampleConsumer sampleAnswers
        (delivered ⟨[0x71], SampleProtobuf.encodeRequest { sampleRequest with type := 0 },
          [0x37]⟩)) := by
  have hnothing : responses (processMessage SampleProtobuf.sampleProtobuf SampleIcu.sampleIcu
      sampleConsumer sampleAnswers (delivered ⟨[0x71],
        SampleProtobuf.encodeRequest { sampleRequest with type := 0 }, [0x37]⟩)) = [] := by
    decide +kernel
  refine ⟨by decide, by decide, by decide, by decide +kernel, rfl, by decide +kernel, ?_⟩
  intro hmoderated
  have hresponses := hmoderated.1
  rw [hnothing] at hresponses
  cases hresponses

end EndToEnd
end ModerationService
