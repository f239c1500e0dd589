import ModerationService.Kafka.Intake
import ModerationService.Service.LoopRefinement

/-!
# Failures — what becomes of a message whose text could not be processed

A stage that throws ends `ProcessMessage` without a response.  When ICU fails, `TextNormalization`
returns the empty string instead, in which the other stages find no forbidden word, and the text is
reported as passed.
-/

namespace ModerationService
namespace Failures

open Library Icu CodePoints TextProcessor LoopRefinement Kafka Kafka.KafkaConsumer Intake

variable {pb : Protobuf} {icu : Icu} {answers : Answers} {consumer : KafkaConsumer}
  {message : RdKafkaMessage} {request_id : Int64} {request : ModerateObjectRequest}

/-! ## Failures -/

/-- ICU gives no NFC normalizer, or the one it gives fails on the text. -/
inductive NormalizerFails (icu : Icu) (textN : StdString) : Prop where
  | getNFCInstance (h : uFailure icu.getNFCInstance = true)
  | normalize (h : uFailure (icu.normalize (icu.decodeUTF8 textN)).2 = true)

def Throws (fault : Stage → Option StdException) : Prop :=
  ∃ stage e, fault stage = some e

/-- The points at which text processing can fail. -/
inductive Fails (icu : Icu) (fault : Stage → Option StdException) (textN : StdString) : Prop where
  | normalizer (h : NormalizerFails icu textN)
  | thrown (h : Throws fault)

/-- What is read for the key of the message, its payload and its type are accepted. -/
structure Admitted (pb : Protobuf) (answers : Answers) (message : RdKafkaMessage)
    (request_id : Int64) (request : ModerateObjectRequest) : Prop where
  key : keyId (keyStr answers message) = some request_id
  payload : pb.parseRequest message.payload = some request
  valid : pb.objectTypeIsValid request.type = true
  specified : request.type ≠ objectTypeUnspecified

/-- No response is sent, and the callback is not called: any other callback could stand in its
place, and none. -/
structure Unpublished (pb : Protobuf) (icu : Icu) (consumer : KafkaConsumer) (answers : Answers)
    (message : RdKafkaMessage) : Prop where
  response : ∀ response topic key, .sendResponseAsync response topic key ∉
    (processMessage pb icu consumer answers message).trace
  callback : consumer.callback_ ≠ none → ∀ callback_,
    processMessage pb icu { consumer with callback_ := some callback_ } answers message =
      processMessage pb icu { consumer with callback_ := none } answers message

/-! ## The two ends of an admitted message -/

theorem tryTextProcessing_throws (icu : Icu) {fault : Stage → Option StdException}
    (h : Throws fault) (textN : StdString) : ∃ e, tryTextProcessing icu fault textN = .error e := by
  rcases h with ⟨stage, e, hstage⟩
  cases hresult : tryTextProcessing icu fault textN with
  | error e =>
      exact ⟨e, rfl⟩
  | ok isFlagged =>
      have hnone := (tryTextProcessing_eq_ok hresult).1 stage
      simp [hstage] at hnone

section Ends

variable (icu : Icu) (consumer : KafkaConsumer)

/-- A stage throws: a log line, and nothing else. -/
theorem processMessage_throws (h : Admitted pb answers message request_id request)
    (hthrows : Throws answers.fault) :
    processMessage pb icu consumer answers message =
      ⟨.ok (), [.logError .kAlgorithm (.named "TEXT_PROCESSING_FAIL")]⟩ := by
  rcases tryTextProcessing_throws icu hthrows request.text with ⟨e, herror⟩
  unfold processMessage processPayload
  rw [Traced.bind_of_silent (requestId_accepted h.key)]
  simp only [h.payload, h.valid, h.specified, flagged_error icu answers herror]
  rfl

/-- No stage throws: the verdict goes out, and then to the callback. -/
theorem processMessage_returns (h : Admitted pb answers message request_id request)
    (hthrows : ¬ Throws answers.fault) :
    processMessage pb icu consumer answers message = (do
      let response : ModerateObjectResponse := { success := textProcessing icu request.text }
      respond pb consumer answers response request_id
      match consumer.callback_ with
      | some callback_ => callback_ answers response request_id request.text request.type
      | none => return) := by
  have hnone : ∀ stage, answers.fault stage = none :=
    fun stage => Option.eq_none_iff_forall_ne_some.2 (fun e he => hthrows ⟨stage, e, he⟩)
  have hreturns : tryTextProcessing icu answers.fault request.text =
      .ok (textProcessing icu request.text) :=
    tryTextProcessing_ok hnone request.text
  unfold processMessage processPayload
  rw [Traced.bind_of_silent (requestId_accepted h.key)]
  simp only [h.payload, h.valid, h.specified,
    Traced.bind_of_silent (flagged_ok icu answers hreturns)]
  rfl

/-- With a producer there is a response. -/
theorem respond_sent {producer_ : KafkaProducer} (hproducer : consumer.producer_ = some producer_)
    (response : ModerateObjectResponse) :
    .sendResponseAsync response consumer.config_.result_topic (StdLib.toString request_id) ∈
      (respond pb consumer answers response request_id).trace := by
  unfold respond
  rw [hproducer]
  refine Traced.mem_trace_bind ?_ _
  unfold KafkaProducer.sendResponseAsync
  refine Traced.mem_trace_bind ?_ _
  simp

/-- The response carries the verdict, whatever becomes of it. -/
theorem processMessage_sends (h : Admitted pb answers message request_id request)
    (hthrows : ¬ Throws answers.fault) {producer_ : KafkaProducer}
    (hproducer : consumer.producer_ = some producer_) :
    .sendResponseAsync { success := textProcessing icu request.text } consumer.config_.result_topic
        (StdLib.toString request_id) ∈
      (processMessage pb icu consumer answers message).trace := by
  rw [processMessage_returns icu consumer h hthrows]
  exact Traced.mem_trace_bind (respond_sent consumer hproducer _) _

/-- Without a producer there is a log line in place of the response. -/
theorem processMessage_unavailable (h : Admitted pb answers message request_id request)
    (hthrows : ¬ Throws answers.fault) (hproducer : consumer.producer_ = none) :
    processMessage pb icu consumer answers message = (do
      logError .kKafka (.named "PRODUCER_NOT_AVAILABLE")
      match consumer.callback_ with
      | some callback_ =>
          callback_ answers { success := textProcessing icu request.text } request_id request.text
            request.type
      | none => return) := by
  have hrespond : ∀ response, respond pb consumer answers response request_id =
      logError .kKafka (.named "PRODUCER_NOT_AVAILABLE") := by
    intro response
    unfold respond
    rw [hproducer]
  rw [processMessage_returns icu consumer h hthrows]
  simp only [hrespond]

end Ends

/-! ## The empty string of a normalizer that fails -/

theorem normalizedText_fails {textN : StdString} (h : NormalizerFails icu textN) :
    normalizedText icu textN = [] := by
  unfold normalizedText
  cases h with
  | getNFCInstance h =>
      rw [if_pos h]
  | normalize h =>
      simp [h]

/-- The seven stages after the first one find nothing in the empty string. -/
theorem textProcessing_fails (ht : icu.Transcodes) {textN : StdString}
    (h : NormalizerFails icu textN) : textProcessing icu textN = false := by
  rw [textProcessing_eq_verdict ht, normalizedText_fails h]
  simp [verdict, tokensUnder, tokens, leetStage, collapsed, repetitionStage, whitespaceStage,
    visibleStage, Collapse.squeeze, Collapse.dropRepeats, forbiddenCount]

/-- A text that ICU cannot normalise is reported as passed. -/
theorem processMessage_passes (ht : icu.Transcodes) (h : Admitted pb answers message request_id request)
    (hfails : NormalizerFails icu request.text) (hthrows : ¬ Throws answers.fault)
    {producer_ : KafkaProducer} (hproducer : consumer.producer_ = some producer_) :
    .sendResponseAsync { success := false } consumer.config_.result_topic
        (StdLib.toString request_id) ∈
      (processMessage pb icu consumer answers message).trace := by
  have hsent := processMessage_sends icu consumer h hthrows hproducer
  rwa [textProcessing_fails ht hfails] at hsent

/-! ## When a failure is not published -/

theorem unpublished_of_throws (h : Admitted pb answers message request_id request)
    (hthrows : Throws answers.fault) : Unpublished pb icu consumer answers message := by
  refine ⟨?_, ?_⟩
  · intro response topic key
    rw [processMessage_throws icu consumer h hthrows]
    simp
  · intro _ callback_
    rw [processMessage_throws icu _ h hthrows, processMessage_throws icu _ h hthrows]

/-- Nothing goes out only where there is nothing to send it with and nobody to call. -/
theorem mute_of_unpublished (h : Admitted pb answers message request_id request)
    (hthrows : ¬ Throws answers.fault) (hmute : Unpublished pb icu consumer answers message) :
    consumer.producer_ = none ∧ consumer.callback_ = none := by
  have hproducer : consumer.producer_ = none := by
    cases hproducer : consumer.producer_ with
    | none =>
        rfl
    | some producer_ =>
        exact (hmute.response _ _ _ (processMessage_sends icu consumer h hthrows hproducer)).elim
  refine ⟨hproducer, ?_⟩
  by_contra hcallback
  -- a callback that throws would be noticed
  have hnoticed := hmute.callback hcallback (fun _ _ _ _ _ => throw ⟨"callback"⟩)
  have hthrown := processMessage_unavailable icu
    { consumer with callback_ := some (fun _ _ _ _ _ => throw ⟨"callback"⟩) } h hthrows hproducer
  have hreturned := processMessage_unavailable icu { consumer with callback_ := none } h hthrows
    hproducer
  have hresult := congrArg Traced.result (hthrown.symm.trans (hnoticed.trans hreturned))
  cases hresult

/-- A failure of text processing is not published, except where the normalizer fails and no stage
throws. -/
theorem failure_unpublished_iff (h : Admitted pb answers message request_id request) :
    (Fails icu answers.fault request.text → Unpublished pb icu consumer answers message) ↔
      (NormalizerFails icu request.text → Throws answers.fault ∨
        consumer.producer_ = none ∧ consumer.callback_ = none) := by
  by_cases hthrows : Throws answers.fault
  · have hunpublished : Unpublished pb icu consumer answers message :=
      unpublished_of_throws h hthrows
    exact ⟨fun _ _ => Or.inl hthrows, fun _ _ => hunpublished⟩
  · constructor
    · intro hclaim hfails
      exact Or.inr (mute_of_unpublished h hthrows (hclaim (.normalizer hfails)))
    · intro hmute hfails
      cases hfails with
      | thrown hthrown =>
          exact (hthrows hthrown).elim
      | normalizer hfails =>
          rcases (hmute hfails).resolve_left hthrows with ⟨hproducer, hcallback⟩
          refine ⟨?_, fun hne => (hne hcallback).elim⟩
          intro response topic key hsent
          rw [processMessage_unavailable icu consumer h hthrows hproducer, hcallback] at hsent
          cases hsent with
          | tail _ hsent =>
              cases hsent

/-! ## ICU without its data, and ICU out of memory -/

/-- `getNFCInstance` fails with `U_MISSING_RESOURCE_ERROR`. -/
def missingIcu : Icu :=
  { SampleIcu.sampleIcu with getNFCInstance := 2 }

/-- `normalize` fails with `U_MEMORY_ALLOCATION_ERROR`. -/
def exhaustedIcu : Icu :=
  { SampleIcu.sampleIcu with normalize := fun cs => (cs, 7) }

def sampleRequest : ModerateObjectRequest :=
  { id := 7, text := Utf8.encode
      ['g', 'a', 'y', ' ', 'g', 'a', 'y', ' ', 'g', 'a', 'y', ' ', 'g', 'a', 'y'], type := 1 }

def sampleMessage : RdKafkaMessage :=
  ⟨errNoError, none, SampleProtobuf.encodeRequest sampleRequest⟩

def sampleAnswers (fault : Stage → Option StdException) : Answers :=
  ⟨errNoError, fault, .returns true, true, 0, SampleProtobuf.sampleKeyObject []⟩

theorem sample_admitted (fault : Stage → Option StdException) :
    Admitted SampleProtobuf.sampleProtobuf (sampleAnswers fault) sampleMessage 0 sampleRequest where
  key := rfl
  payload := by decide +kernel
  valid := by decide
  specified := by decide

/-- The normalizer is missing, but `Tokenize` throws later. -/
theorem failure_unpublished_iff_tokenize :
    Unpublished SampleProtobuf.sampleProtobuf missingIcu sampleConsumer
      (sampleAnswers (fun stage => if stage = .tokenize then some ⟨"bad_alloc"⟩ else none))
      sampleMessage := by
  have hthrows : Throws (fun stage => if stage = .tokenize then some ⟨"bad_alloc"⟩ else none) :=
    ⟨.tokenize, ⟨"bad_alloc"⟩, rfl⟩
  exact (failure_unpublished_iff (sample_admitted _)).2 (fun _ => Or.inl hthrows) (.thrown hthrows)

/-- A text with four forbidden words, which would be flagged, is reported as passed. -/
theorem failure_published :
    textProcessing SampleIcu.sampleIcu sampleRequest.text = true ∧
    ¬ (Fails missingIcu (sampleAnswers (fun _ => none)).fault sampleRequest.text →
      Unpublished SampleProtobuf.sampleProtobuf missingIcu sampleConsumer
        (sampleAnswers (fun _ => none)) sampleMessage) ∧
    ¬ (Fails exhaustedIcu (sampleAnswers (fun _ => none)).fault sampleRequest.text →
      Unpublished SampleProtobuf.sampleProtobuf exhaustedIcu sampleConsumer
        (sampleAnswers (fun _ => none)) sampleMessage) := by
  have hthrows : ¬ Throws (sampleAnswers (fun _ => none)).fault := by
    rintro ⟨stage, e, h⟩
    cases h
  refine ⟨by decide +kernel, ?_, ?_⟩
  · intro hclaim
    have hfails : NormalizerFails missingIcu sampleRequest.text := .getNFCInstance (by decide)
    have hsent := processMessage_passes ⟨Utf8.decode_encode⟩ (sample_admitted _) hfails hthrows
      (rfl : sampleConsumer.producer_ = some _)
    exact (hclaim (.normalizer hfails)).response _ _ _ hsent
  · intro hclaim
    have hfails : NormalizerFails exhaustedIcu sampleRequest.text := .normalize (by decide)
    have hsent := processMessage_passes ⟨Utf8.decode_encode⟩ (sample_admitted _) hfails hthrows
      (rfl : sampleConsumer.producer_ = some _)
    exact (hclaim (.normalizer hfails)).response _ _ _ hsent

end Failures
end ModerationService
