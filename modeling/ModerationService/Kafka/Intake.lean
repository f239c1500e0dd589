import ModerationService.SampleIcu
import ModerationService.Model.SampleProtobuf
import ModerationService.Service.Service

/-!
# Intake — what the consume loop makes of the messages it sees

The abstract counterpart of the consumer: a message is *accepted* with a request id and a request,
or it is not; an accepted message causes one response and, when its text is flagged and the service
is alive, one record (`expected`).

* `consumeOnce_ends`: one iteration does exactly that and returns, however sending and saving end;
* `consumeLoop_ends`: so does the loop, message after message;
* `consumeLoop_responses` and `consumeLoop_records`: hence the responses and the records of a run
  are, in order, those its accepted messages ask for.
-/

namespace ModerationService
namespace Intake

open Library Library.Traced TextProcessor Kafka Kafka.KafkaConsumer Service

/-! ## Observed actions -/

/-- A response handed to `SendResponseAsync`, with its key. -/
structure SentResponse where
  response : ModerateObjectResponse
  topic : StdString
  key : StdString
  deriving DecidableEq

inductive Action where
  | respond (sent : SentResponse)
  | save (record : ModerationRecord)
  deriving DecidableEq

def action : Event → Option Action
  | .sendResponseAsync response topic key => some (.respond ⟨response, topic, key⟩)
  | .saveModerationResult record => some (.save record)
  | .produced _ => none
  | .logError _ _ => none

/-! ## Acceptance -/

/-- The id that a key stands for: `0` without a key, else the number at the front of the key, which
has to start with a digit or a sign. -/
def keyId : Option StdString → Option Int64
  | none => some 0
  | some key =>
      if key.isEmpty then some 0
      else if startsNumeric key then (StdLib.stoll key).toOption
      else none

/-- The id and the request of a message that is accepted under `id`: the payload parses, the type is
valid and specified, and text processing does not throw. -/
def acceptedUnder (id : Option Int64) (pb : Protobuf) (icu : Icu) (answers : Answers)
    (message : RdKafkaMessage) : Option (Int64 × ModerateObjectRequest) :=
  match id, pb.parseRequest message.payload with
  | some request_id, some request =>
      if pb.objectTypeIsValid request.type ∧ request.type ≠ objectTypeUnspecified ∧
          (tryTextProcessing icu answers.fault request.text).isOk then
        some (request_id, request)
      else
        none
  | _, _ => none

/-- An accepted message: what the consumer reads for its key stands for an id. -/
def accepted (pb : Protobuf) (icu : Icu) (answers : Answers) (message : RdKafkaMessage) :
    Option (Int64 × ModerateObjectRequest) :=
  acceptedUnder (keyId (keyStr answers message)) pb icu answers message

/-- The accepted message of a poll, if it delivered one. -/
def pollAccepted (pb : Protobuf) (icu : Icu) (poll : Poll) :
    Option (Int64 × ModerateObjectRequest) :=
  match poll.message with
  | some message =>
      if message.err = errNoError then accepted pb icu poll.answers message else none
  | none => none

def responseTo (icu : Icu) (consumer : KafkaConsumer) (request_id : Int64)
    (request : ModerateObjectRequest) : SentResponse :=
  { response := { success := textProcessing icu request.text }
    topic := consumer.config_.result_topic
    key := StdLib.toString request_id }

def recordOf (request_id : Int64) (request : ModerateObjectRequest) (now : TimePoint) :
    ModerationRecord :=
  { object_id := request_id
    object_type := request.type
    text := request.text
    is_flagged := true
    moderated_at := now
    reason := violationReason }

/-- The log lines of a key that is turned down. -/
def keyErrors : List LogCode :=
  [.named "INVALID_KEY_FORMAT", .named "PARSE_KEY_FAIL"]

/-- One response, and one record when the text is flagged and the service is alive. -/
def expected (icu : Icu) (consumer : KafkaConsumer) (answers : Answers) :
    Option (Int64 × ModerateObjectRequest) → List Action
  | none => []
  | some (request_id, request) =>
      .respond (responseTo icu consumer request_id request) ::
        if answers.serviceAlive && textProcessing icu request.text then
          [.save (recordOf request_id request answers.now)]
        else
          []

/-! ## One spec lemma for each function -/

section Specs

variable (pb : Protobuf) (icu : Icu) (answers : Answers)

theorem logError_ends (subsystem : Subsystem) (code : LogCode) :
    Ends action (logError subsystem code) (.ok ()) [] :=
  Ends.emit_unseen rfl

theorem logError_then {α : Type} (subsystem : Subsystem) (code : LogCode) (a : α) :
    Ends action (do logError subsystem code; return a) (.ok a) [] :=
  (logError_ends subsystem code).bind (Ends.pure a)

theorem produce_ends (topic payload key : StdString) :
    Ends action (KafkaProducer.produce answers topic payload key) (.ok answers.produce) [] := by
  unfold KafkaProducer.produce
  split_ifs
  · exact Ends.bind (Ends.emit_unseen rfl) (Ends.pure _)
  · exact Ends.pure _

/-- However sending ends, it has been asked for once. -/
theorem sendResponseAsync_ends (producer : KafkaProducer)
    (response : ModerateObjectResponse) (topic key : StdString) :
    ∃ sent, Ends action (producer.sendResponseAsync pb answers response topic key) (.ok sent)
      [.respond ⟨response, topic, key⟩] := by
  unfold KafkaProducer.sendResponseAsync
  have hcall : Ends action (emit (.sendResponseAsync response topic key) : Program Unit) (.ok ())
      [.respond ⟨response, topic, key⟩] :=
    Ends.emit_seen rfl
  split_ifs
  · exact ⟨false, hcall.bind (logError_then _ _ false)⟩
  · exact ⟨false, hcall.bind (logError_then _ _ false)⟩
  · cases pb.serializeResponse response with
    | none =>
        exact ⟨false, hcall.bind (logError_then _ _ false)⟩
    | some serializedResponse =>
        by_cases herror : answers.produce ≠ errNoError
        · refine ⟨false, hcall.bind ((produce_ends answers _ _ _).bind ?_)⟩
          rw [if_pos herror]
          exact logError_then _ _ false
        · refine ⟨true, hcall.bind ((produce_ends answers _ _ _).bind ?_)⟩
          rw [if_neg herror]
          exact Ends.pure true

theorem respond_ends {consumer : KafkaConsumer} (hproducer : consumer.producer_ ≠ none)
    (response : ModerateObjectResponse) (request_id : Int64) :
    Ends action (respond pb consumer answers response request_id) (.ok ())
      [.respond ⟨response, consumer.config_.result_topic, StdLib.toString request_id⟩] := by
  rcases Option.ne_none_iff_exists'.1 hproducer with ⟨producer_, hsome⟩
  rcases sendResponseAsync_ends pb answers producer_ response consumer.config_.result_topic
    (StdLib.toString request_id) with ⟨sent, hsent⟩
  unfold respond
  rw [hsome]
  -- whether sending succeeded is only logged
  refine hsent.bind ?_
  cases sent with
  | false =>
      exact logError_ends _ _
  | true =>
      exact Ends.pure ()

/-- The key has an id, or it is logged and turned down. -/
theorem requestId_cases (message : RdKafkaMessage) :
    (∃ request_id, keyId (keyStr answers message) = some request_id ∧
      requestId answers message = ⟨.ok (some request_id), []⟩) ∨
    (keyId (keyStr answers message) = none ∧ ∃ code ∈ keyErrors,
      requestId answers message = ⟨.ok none, [.logError .kKafka code]⟩) := by
  unfold requestId keyId
  cases keyStr answers message with
  | none =>
      exact Or.inl ⟨0, rfl, rfl⟩
  | some key_str =>
      cases key_str with
      | nil =>
          exact Or.inl ⟨0, rfl, rfl⟩
      | cons b bs =>
          have hlength : 0 < (b :: bs).length := Nat.succ_pos _
          simp only [hlength, if_true, List.isEmpty_cons]
          -- a key that does not start like a number is rejected before it is parsed
          cases startsNumeric (b :: bs) with
          | false =>
              exact Or.inr ⟨rfl, .named "INVALID_KEY_FORMAT", by simp [keyErrors], rfl⟩
          | true =>
              cases StdLib.stoll (b :: bs) with
              -- `stoll` throws, and the handler rejects the key
              | error e =>
                  exact Or.inr ⟨rfl, .named "PARSE_KEY_FAIL", by simp [keyErrors], rfl⟩
              | ok request_id =>
                  exact Or.inl ⟨request_id, rfl, rfl⟩

variable {answers} in
theorem requestId_accepted {message : RdKafkaMessage} {request_id : Int64}
    (h : keyId (keyStr answers message) = some request_id) :
    requestId answers message = ⟨.ok (some request_id), []⟩ := by
  rcases requestId_cases answers message with ⟨id, hid, haccepted⟩ | ⟨hnone, _⟩
  · have hsame : id = request_id := Option.some.inj (hid.symm.trans h)
    rw [haccepted, hsame]
  · simp [hnone] at h

variable {answers} in
/-- A key without an id is logged, and nothing else happens. -/
theorem requestId_rejected {message : RdKafkaMessage}
    (h : keyId (keyStr answers message) = none) :
    ∃ code ∈ keyErrors, requestId answers message = ⟨.ok none, [.logError .kKafka code]⟩ := by
  rcases requestId_cases answers message with ⟨id, hid, _⟩ | ⟨_, hrejected⟩
  · simp [hid] at h
  · exact hrejected

theorem requestId_ends (message : RdKafkaMessage) :
    Ends action (requestId answers message) (.ok (keyId (keyStr answers message))) [] := by
  cases hid : keyId (keyStr answers message) with
  | some request_id =>
      rw [requestId_accepted hid]
      exact Ends.pure _
  | none =>
      rcases requestId_rejected hid with ⟨code, _, hrejected⟩
      rw [hrejected]
      exact logError_then _ _ none

/-- An exception of text processing is caught and logged. -/
theorem flagged_error {text : StdString} {e : StdException}
    (h : tryTextProcessing icu answers.fault text = .error e) :
    flagged icu answers text =
      ⟨.ok none, [.logError .kAlgorithm (.named "TEXT_PROCESSING_FAIL")]⟩ := by
  unfold flagged
  rw [h]
  rfl

theorem flagged_ok {text : StdString} {isFlagged : Bool}
    (h : tryTextProcessing icu answers.fault text = .ok isFlagged) :
    flagged icu answers text = ⟨.ok (some isFlagged), []⟩ := by
  unfold flagged
  rw [h]
  rfl

theorem flagged_ends (text : StdString) :
    Ends action (flagged icu answers text)
      (.ok (tryTextProcessing icu answers.fault text).toOption) [] := by
  cases hresult : tryTextProcessing icu answers.fault text with
  | error e =>
      rw [flagged_error icu answers hresult]
      exact logError_then _ _ none
  | ok isFlagged =>
      rw [flagged_ok icu answers hresult]
      exact Ends.pure _

/-- Saving is asked for once, and either returns or throws. -/
theorem saveModerationResult_ends (record : ModerationRecord) :
    ∃ r, Ends action (saveModerationResult answers record) r [.save record] := by
  unfold saveModerationResult
  have hcall : Ends action (emit (.saveModerationResult record) : Program Unit) (.ok ())
      [.save record] :=
    Ends.emit_seen rfl
  cases answers.save with
  | throws e =>
      exact ⟨.error e, hcall.bind ⟨rfl, rfl⟩⟩
  | returns saved =>
      exact ⟨.ok saved, hcall.bind (Ends.pure saved)⟩

theorem saveResultToDatabase_ends (object_id : Int64) (text : StdString)
    (is_flagged : Bool) (reason : String) (object_type : ObjectType) :
    ∃ r, Ends action
      (saveResultToDatabase answers object_id text is_flagged reason object_type) r
      [.save { object_id, object_type, text, is_flagged, moderated_at := answers.now, reason }] := by
  unfold saveResultToDatabase
  rcases saveModerationResult_ends answers
    { object_id, object_type, text, is_flagged, moderated_at := answers.now, reason } with ⟨r, hsave⟩
  cases r with
  | error e =>
      exact ⟨.error e, hsave.bind_error⟩
  | ok saved =>
      -- whether the record was saved is only logged
      refine ⟨.ok (), hsave.bind ?_⟩
      cases saved with
      | false =>
          exact logError_ends _ _
      | true =>
          exact Ends.pure ()

/-- A flagged result asks for one record, and no exception of the repository gets out. -/
theorem handleModerationResult_ends (response : ModerateObjectResponse)
    (request_id : Int64) (originalText : StdString) (objectType : ObjectType) :
    Ends action (handleModerationResult answers response request_id originalText objectType)
      (.ok ())
      (if response.success then
        [.save (recordOf request_id ⟨request_id, originalText, objectType⟩ answers.now)]
      else
        []) := by
  unfold handleModerationResult
  cases hsuccess : response.success with
  | false =>
      exact Ends.tryCatch_ok (Ends.pure ()) _
  | true =>
      rcases saveResultToDatabase_ends answers request_id originalText true violationReason
        objectType with ⟨r, hsave⟩
      -- an exception of the repository ends here
      cases r with
      | ok _ =>
          exact hsave.tryCatch_ok _
      | error e =>
          exact hsave.tryCatch_error (logError_ends _ _)

/-- An expired service is logged, and saves nothing. -/
theorem resultCallback_ends (response : ModerateObjectResponse) (request_id : Int64)
    (originalText : StdString) (objectType : ObjectType) :
    Ends action (resultCallback answers response request_id originalText objectType) (.ok ())
      (if answers.serviceAlive && response.success then
        [.save (recordOf request_id ⟨request_id, originalText, objectType⟩ answers.now)]
      else
        []) := by
  unfold resultCallback
  cases answers.serviceAlive with
  | false =>
      exact Ends.tryCatch_ok (logError_ends _ _) _
  | true =>
      have hhandle := handleModerationResult_ends answers response request_id originalText objectType
      exact hhandle.tryCatch_ok _

/-- One message: nothing when it is not accepted, else its response and its record. -/
theorem processMessage_ends {consumer : KafkaConsumer} (hproducer : consumer.producer_ ≠ none)
    (hcallback : consumer.callback_ = some resultCallback) (message : RdKafkaMessage) :
    Ends action (processMessage pb icu consumer answers message) (.ok ())
      (expected icu consumer answers (accepted pb icu answers message)) := by
  unfold processMessage processPayload accepted acceptedUnder
  -- one case for each of the early returns, in the order of the source
  refine (requestId_ends answers message).bind ?_
  cases keyId (keyStr answers message) with
  | none =>
      exact Ends.pure ()
  | some request_id =>
      cases pb.parseRequest message.payload with
      | none =>
          exact logError_ends _ _
      | some request =>
          cases hvalid : pb.objectTypeIsValid request.type with
          | false =>
              have hrejected := logError_then .kKafka (.named "INVALID_OBJECT_TYPE") ()
              simpa [hvalid, expected] using hrejected
          | true =>
              simp only [hvalid, Bool.not_true, Bool.false_eq_true, if_false, true_and]
              by_cases hspecified : request.type = objectTypeUnspecified
              · rw [if_pos hspecified, if_neg (fun h => h.1 hspecified)]
                exact logError_then _ _ ()
              · rw [if_neg hspecified]
                -- text processing throws: no response and no callback
                refine (flagged_ends icu answers request.text).bind ?_
                cases hverdict : tryTextProcessing icu answers.fault request.text with
                | error e =>
                    rw [if_neg (fun h => Bool.false_ne_true h.2)]
                    exact Ends.pure ()
                | ok isFlagged =>
                    rw [if_pos ⟨hspecified, rfl⟩, (tryTextProcessing_eq_ok hverdict).2]
                    simp only [hcallback]
                    -- the callback runs whatever became of the response
                    refine (respond_ends pb answers hproducer _ request_id).bind ?_
                    exact resultCallback_ends answers _ request_id request.text request.type

end Specs

/-! ## The loop -/

section Loop

variable (pb : Protobuf) (icu : Icu) {consumer : KafkaConsumer}

/-- A poll without a message, an end of partition, a timeout and an error cause no action. -/
theorem consumeOnce_ends (hproducer : consumer.producer_ ≠ none)
    (hcallback : consumer.callback_ = some resultCallback) (poll : Poll) :
    Ends action (consumeOnce pb icu consumer poll) (.ok ())
      (expected icu consumer poll.answers (pollAccepted pb icu poll)) := by
  unfold consumeOnce pollAccepted
  cases poll.message with
  | none =>
      exact Ends.pure ()
  | some message =>
      by_cases hmessage : message.err = errNoError
      · simp only [hmessage, if_true]
        exact processMessage_ends pb icu poll.answers hproducer hcallback message
      · simp only [hmessage, if_false]
        split_ifs
        · exact Ends.pure ()
        · exact Ends.pure ()
        · exact logError_ends _ _

theorem consumeLoop_ends (hproducer : consumer.producer_ ≠ none)
    (hcallback : consumer.callback_ = some resultCallback) (polls : List Poll) :
    Ends action (consumeLoop pb icu consumer polls) (.ok ())
      (polls.flatMap (fun poll => expected icu consumer poll.answers (pollAccepted pb icu poll))) :=
  Ends.forEach (fun poll _ => consumeOnce_ends pb icu hproducer hcallback poll)

end Loop

/-! ## Responses and records -/

def Action.sent : Action → Option SentResponse
  | .respond sent => some sent
  | .save _ => none

def Action.record : Action → Option ModerationRecord
  | .respond _ => none
  | .save record => some record

/-- The responses a program hands to `SendResponseAsync`, in order. -/
def responses (p : Program Unit) : List SentResponse :=
  (p.trace.filterMap action).filterMap Action.sent

/-- The records a program hands to `SaveModerationResult`, in order. -/
def records (p : Program Unit) : List ModerationRecord :=
  (p.trace.filterMap action).filterMap Action.record

/-- The response an accepted poll asks for. -/
def responseOf (pb : Protobuf) (icu : Icu) (consumer : KafkaConsumer) (poll : Poll) :
    Option SentResponse :=
  (pollAccepted pb icu poll).map (fun message => responseTo icu consumer message.1 message.2)

/-- The record an accepted poll asks for when its text is flagged. -/
def flaggedRecordOf (pb : Protobuf) (icu : Icu) (poll : Poll) : Option ModerationRecord :=
  (pollAccepted pb icu poll).bind (fun message =>
    if textProcessing icu message.2.text then
      some (recordOf message.1 message.2 poll.answers.now)
    else
      none)

theorem filterMap_flatMap_toList {α β γ : Type} {see : β → Option γ} {f : α → List β}
    {g : α → Option γ} {xs : List α} (h : ∀ x ∈ xs, (f x).filterMap see = (g x).toList) :
    (xs.flatMap f).filterMap see = xs.filterMap g := by
  induction xs with
  | nil =>
      rfl
  | cons x xs ih =>
      have hx := h x (by simp)
      have hrest := ih (fun y hy => h y (List.mem_cons_of_mem x hy))
      rw [List.flatMap_cons, List.filterMap_append, hx, hrest]
      cases hg : g x with
      | none =>
          simp [hg]
      | some c =>
          simp [hg]

section Actions

variable (pb : Protobuf) (icu : Icu)

/-- Of what is expected of a poll, the response. -/
theorem expected_sent (consumer : KafkaConsumer) (poll : Poll) :
    (expected icu consumer poll.answers (pollAccepted pb icu poll)).filterMap Action.sent =
      (responseOf pb icu consumer poll).toList := by
  unfold responseOf
  cases pollAccepted pb icu poll with
  | none =>
      rfl
  | some message =>
      simp only [expected]
      split_ifs <;> rfl

/-- And the record, while the service is alive. -/
theorem expected_record (consumer : KafkaConsumer) (poll : Poll) :
    (expected icu consumer poll.answers (pollAccepted pb icu poll)).filterMap Action.record =
      if poll.answers.serviceAlive then (flaggedRecordOf pb icu poll).toList else [] := by
  unfold flaggedRecordOf
  cases pollAccepted pb icu poll with
  | none =>
      simp [expected]
  | some message =>
      simp only [expected, List.filterMap_cons, Action.record, Option.bind_some]
      cases poll.answers.serviceAlive <;> cases textProcessing icu message.2.text <;> rfl

variable {consumer : KafkaConsumer} (hproducer : consumer.producer_ ≠ none)
  (hcallback : consumer.callback_ = some resultCallback)

include hproducer hcallback

theorem responses_consumeOnce (poll : Poll) :
    responses (consumeOnce pb icu consumer poll) = (responseOf pb icu consumer poll).toList := by
  rw [responses, (consumeOnce_ends pb icu hproducer hcallback poll).observed]
  exact expected_sent pb icu consumer poll

theorem records_consumeOnce (poll : Poll) :
    records (consumeOnce pb icu consumer poll) =
      if poll.answers.serviceAlive then (flaggedRecordOf pb icu poll).toList else [] := by
  rw [records, (consumeOnce_ends pb icu hproducer hcallback poll).observed]
  exact expected_record pb icu consumer poll

theorem consumeLoop_responses (polls : List Poll) :
    responses (consumeLoop pb icu consumer polls) =
      polls.filterMap (responseOf pb icu consumer) := by
  rw [responses, (consumeLoop_ends pb icu hproducer hcallback polls).observed]
  apply filterMap_flatMap_toList
  intro poll _
  exact expected_sent pb icu consumer poll

theorem consumeLoop_records {polls : List Poll}
    (halive : ∀ poll ∈ polls, poll.answers.serviceAlive = true) :
    records (consumeLoop pb icu consumer polls) = polls.filterMap (flaggedRecordOf pb icu) := by
  rw [records, (consumeLoop_ends pb icu hproducer hcallback polls).observed]
  apply filterMap_flatMap_toList
  intro poll hpoll
  rw [expected_record, if_pos (halive poll hpoll)]

end Actions

/-- A consumer as `KafkaClient::Initialize` builds it. -/
def sampleConsumer : KafkaConsumer where
  config_ := { request_topic := [0x71], result_topic := [0x72] }
  callback_ := some resultCallback
  producer_ := some { producer_ := true, topic_name_ := [0x71] }

/-- A flagged message that can neither be sent nor saved, a timeout, nothing, a message with a key
that is no number, and a message that passes. -/
def samplePolls : List Poll :=
  let payload (id : Int64) (text : List Char) : StdString :=
    SampleProtobuf.encodeRequest { id, text := Utf8.encode text, type := 1 }
  let poll (message : Option RdKafkaMessage) (produce : ErrorCode) (save : SaveOutcome) : Poll :=
    ⟨message, ⟨produce, fun _ => none, save, true, 0, SampleProtobuf.sampleKeyObject [0x78]⟩⟩
  [poll (some ⟨errNoError, none, payload 5
      ['g', 'a', 'y', ' ', 'g', '@', 'y', ' ', 'g', '4', 'y', ' ', 'G', 'a', 'a', 'y']⟩)
      (-1) (.throws ⟨"connection lost"⟩),
    poll (some ⟨errTimedOut, none, []⟩) errNoError (.returns true),
    poll none errNoError (.returns true),
    poll (some ⟨errNoError, some [0x78], payload 6 ['o', 'k']⟩) errNoError (.returns true),
    poll (some ⟨errNoError, some [], payload 7 ['o', 'k']⟩) errNoError (.returns false)]

end Intake
end ModerationService
