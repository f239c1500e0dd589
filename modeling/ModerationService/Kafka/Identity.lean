import ModerationService.Kafka.Intake

/-!
# Identity — the id of the key and the id of the payload

A consumed message carries its request id twice: as the decimal key and inside the payload.  The
consumer uses what it reads for the key alone, and `0` when there is none, so a response or a record
may carry another id than the payload's.  `keepsIdentity_iff` says exactly over which runs it does
not.
-/

namespace ModerationService
namespace Identity

open Library Library.Traced TextProcessor Kafka Kafka.KafkaConsumer Service Intake

/-- Everything that a program does for a message whose payload parses to `request` carries the id of
`request`, and that id is not zero. -/
def Carries (p : Program Unit) (request : ModerateObjectRequest) : Prop :=
  (∀ sent ∈ responses p, sent.key = StdLib.toString request.id ∧ request.id ≠ 0) ∧
    ∀ record ∈ records p, record.object_id = request.id ∧ request.id ≠ 0

/-- Over a run, every response and every record carries the non-zero id of its own payload. -/
def KeepsIdentity (pb : Protobuf) (icu : Icu) (consumer : KafkaConsumer) (polls : List Poll) :
    Prop :=
  ∀ poll ∈ polls, ∀ message request, poll.message = some message →
    pb.parseRequest message.payload = some request →
    Carries (consumeOnce pb icu consumer poll) request

/-- Every accepted message of the run has a key, at the front of what is read for it stands the id of
its payload, and that id is not zero. -/
def KeysNamePayloads (pb : Protobuf) (icu : Icu) (polls : List Poll) : Prop :=
  ∀ poll ∈ polls, ∀ message request, poll.message = some message → message.err = errNoError →
    pb.parseRequest message.payload = some request →
    (accepted pb icu poll.answers message).isSome →
    ∃ key_str, keyStr poll.answers message = some key_str ∧ key_str ≠ [] ∧
      StdLib.stoll key_str = .ok request.id ∧ request.id ≠ 0

/-! ## Keys -/

/-- A key names a non-zero id only when it is there and parses to it. -/
theorem keyId_eq_some {key : Option StdString} {request_id : Int64}
    (h : keyId key = some request_id) (hne : request_id ≠ 0) :
    ∃ bytes, key = some bytes ∧ bytes ≠ [] ∧ StdLib.stoll bytes = .ok request_id := by
  cases key with
  | none =>
      exact absurd (Option.some.inj h).symm hne
  | some bytes =>
      unfold keyId at h
      simp only at h
      split_ifs at h with hempty hstart
      · exact absurd (Option.some.inj h).symm hne
      · refine ⟨bytes, rfl, by simpa using hempty, ?_⟩
        cases hparse : StdLib.stoll bytes with
        | error e =>
            rw [hparse] at h
            cases h
        | ok n =>
            rw [hparse] at h
            exact congrArg Except.ok (Option.some.inj h)

theorem keyId_of_stoll {key : Option StdString} {bytes : StdString} {request_id n : Int64}
    (hsome : key = some bytes) (hne : bytes ≠ []) (hstoll : StdLib.stoll bytes = .ok n)
    (h : keyId key = some request_id) : request_id = n := by
  subst hsome
  unfold keyId at h
  simp only [List.isEmpty_iff, hne, if_false, hstoll] at h
  split_ifs at h
  exact (Option.some.inj h).symm

/-- The id of an accepted message is the one read for its key, and its request that of its
payload. -/
theorem accepted_eq_some {pb : Protobuf} {icu : Icu} {answers : Answers} {message : RdKafkaMessage}
    {request_id : Int64} {request : ModerateObjectRequest}
    (h : accepted pb icu answers message = some (request_id, request)) :
    keyId (keyStr answers message) = some request_id ∧
      pb.parseRequest message.payload = some request := by
  unfold accepted acceptedUnder at h
  cases hkey : keyId (keyStr answers message) with
  | none =>
      rw [hkey] at h
      cases h
  | some id =>
      cases hparse : pb.parseRequest message.payload with
      | none =>
          rw [hkey, hparse] at h
          cases h
      | some parsed =>
          rw [hkey, hparse] at h
          simp only at h
          split_ifs at h
          cases h
          exact ⟨rfl, rfl⟩

/-! ## One message -/

section OneMessage

variable (pb : Protobuf) (icu : Icu) {consumer : KafkaConsumer}

/-- Every record of an iteration belongs to its accepted message. -/
theorem record_accepted (hproducer : consumer.producer_ ≠ none)
    (hcallback : consumer.callback_ = some resultCallback) (poll : Poll)
    {record : ModerationRecord} (h : record ∈ records (consumeOnce pb icu consumer poll)) :
    ∃ request_id request, pollAccepted pb icu poll = some (request_id, request) ∧
      record.object_id = request_id := by
  rw [records_consumeOnce pb icu hproducer hcallback] at h
  split_ifs at h
  · rcases Option.bind_eq_some_iff.1 (Option.mem_toList.1 h) with
      ⟨⟨request_id, request⟩, haccepted, hrecord⟩
    refine ⟨request_id, request, haccepted, ?_⟩
    split_ifs at hrecord
    rw [← Option.some.inj hrecord]
    rfl
  · cases h

end OneMessage

/-! ## Every run -/

section Run

variable {pb : Protobuf} {icu : Icu} {consumer : KafkaConsumer} {polls : List Poll}
  (hproducer : consumer.producer_ ≠ none) (hcallback : consumer.callback_ = some resultCallback)

include hproducer hcallback

theorem consumeLoop_eq :
    consumeLoop pb icu consumer polls =
      ⟨.ok (), polls.flatMap (fun poll => (consumeOnce pb icu consumer poll).trace)⟩ :=
  forEach_eq (fun poll _ => (consumeOnce_ends pb icu hproducer hcallback poll).result)

/-- A response under the id of the payload came from a key that names it. -/
theorem keysNamePayloads_of_keepsIdentity (hkeeps : KeepsIdentity pb icu consumer polls) :
    KeysNamePayloads pb icu polls := by
  intro poll hpoll message request hmessage herr hparse haccepted
  -- an accepted message is answered, and its response names the id of its key
  rcases Option.isSome_iff_exists.1 haccepted with ⟨⟨request_id, request'⟩, hsome⟩
  rcases accepted_eq_some hsome with ⟨hkey, hparse'⟩
  have hpollAccepted : pollAccepted pb icu poll = some (request_id, request') := by
    simp only [pollAccepted, hmessage, herr, if_true, hsome]
  have hsent : responseTo icu consumer request_id request' ∈
      responses (consumeOnce pb icu consumer poll) := by
    rw [responses_consumeOnce pb icu hproducer hcallback, responseOf, hpollAccepted]
    simp
  rcases (hkeeps poll hpoll message request hmessage hparse).1 _ hsent with ⟨hsame, hne⟩
  -- equal keys are equal ids, so the key of the message names the id of its payload
  have hid : request_id = request.id := StdLib.toString_injective hsame
  subst hid
  rcases keyId_eq_some hkey hne with ⟨bytes, hbytes, hnonempty, hstoll⟩
  exact ⟨bytes, hbytes, hnonempty, hstoll, hne⟩

omit hproducer hcallback in
/-- When the keys name the payloads, a poll is accepted under the id of its payload. -/
theorem KeysNamePayloads.pollAccepted (hkeys : KeysNamePayloads pb icu polls) {poll : Poll}
    (hpoll : poll ∈ polls) {message : RdKafkaMessage} {request request' : ModerateObjectRequest}
    {request_id : Int64} (hmessage : poll.message = some message)
    (hparse : pb.parseRequest message.payload = some request)
    (haccepted : Intake.pollAccepted pb icu poll = some (request_id, request')) :
    request_id = request.id ∧ request.id ≠ 0 := by
  simp only [Intake.pollAccepted, hmessage] at haccepted
  split_ifs at haccepted with herr
  rcases accepted_eq_some haccepted with ⟨hkey, _⟩
  rcases hkeys poll hpoll message request hmessage herr hparse (by simp [haccepted]) with
    ⟨key, hsome, hnonempty, hstoll, hne⟩
  rcases keyId_of_stoll hsome hnonempty hstoll hkey with rfl
  exact ⟨rfl, hne⟩

theorem keepsIdentity_of_keysNamePayloads (hkeys : KeysNamePayloads pb icu polls) :
    KeepsIdentity pb icu consumer polls := by
  intro poll hpoll message request hmessage hparse
  constructor
  · intro sent hsent
    rw [responses_consumeOnce pb icu hproducer hcallback, responseOf, Option.mem_toList,
      Option.map_eq_some_iff] at hsent
    rcases hsent with ⟨⟨request_id, request'⟩, haccepted, rfl⟩
    rcases hkeys.pollAccepted hpoll hmessage hparse haccepted with ⟨rfl, hne⟩
    exact ⟨rfl, hne⟩
  · intro record hrecord
    rcases record_accepted pb icu hproducer hcallback poll hrecord with
      ⟨request_id, request', haccepted, hobject⟩
    rcases hkeys.pollAccepted hpoll hmessage hparse haccepted with ⟨rfl, hne⟩
    exact ⟨hobject, hne⟩

end Run

/-- The run is made of its iterations, and it keeps the identity of requests exactly when every
accepted message has a key that names the non-zero id of its payload. -/
theorem keepsIdentity_iff (pb : Protobuf) (icu : Icu) {consumer : KafkaConsumer}
    (hproducer : consumer.producer_ ≠ none) (hcallback : consumer.callback_ = some resultCallback)
    (polls : List Poll) :
    (responses (consumeLoop pb icu consumer polls) =
        polls.flatMap (fun poll => responses (consumeOnce pb icu consumer poll)) ∧
      records (consumeLoop pb icu consumer polls) =
        polls.flatMap (fun poll => records (consumeOnce pb icu consumer poll))) ∧
    (KeepsIdentity pb icu consumer polls ↔ KeysNamePayloads pb icu polls) := by
  refine ⟨⟨?_, ?_⟩, ?_, ?_⟩
  · rw [responses, consumeLoop_eq hproducer hcallback, List.filterMap_flatMap,
      List.filterMap_flatMap]
    rfl
  · rw [records, consumeLoop_eq hproducer hcallback, List.filterMap_flatMap,
      List.filterMap_flatMap]
    rfl
  · intro hkeeps
    exact keysNamePayloads_of_keepsIdentity hproducer hcallback hkeeps
  · intro hkeys
    exact keepsIdentity_of_keysNamePayloads hproducer hcallback hkeys

theorem keepsIdentity_iff_sample :
    KeepsIdentity SampleProtobuf.sampleProtobuf SampleIcu.sampleIcu sampleConsumer samplePolls ↔
      KeysNamePayloads SampleProtobuf.sampleProtobuf SampleIcu.sampleIcu samplePolls := by
  have hproducer : sampleConsumer.producer_ ≠ none := by
    simp [sampleConsumer]
  exact (keepsIdentity_iff SampleProtobuf.sampleProtobuf SampleIcu.sampleIcu hproducer rfl
    samplePolls).2

/-- A message without a key whose payload has the id 5. -/
def keylessPoll : Poll :=
  ⟨some ⟨errNoError, none, SampleProtobuf.encodeRequest { id := 5, text := [0x6F, 0x6B], type := 1 }⟩,
    ⟨errNoError, fun _ => none, .returns true, true, 0, SampleProtobuf.sampleKeyObject []⟩⟩

/-- Its response goes out under the key of id 0. -/
theorem keepsIdentity_keyless :
    responses (consumeOnce SampleProtobuf.sampleProtobuf SampleIcu.sampleIcu sampleConsumer
        keylessPoll) = [⟨⟨false⟩, [0x72], StdLib.toString 0⟩] ∧
    ¬ KeepsIdentity SampleProtobuf.sampleProtobuf SampleIcu.sampleIcu sampleConsumer
        [keylessPoll] := by
  have hresponse : responses (consumeOnce SampleProtobuf.sampleProtobuf SampleIcu.sampleIcu
      sampleConsumer keylessPoll) = [⟨⟨false⟩, [0x72], StdLib.toString 0⟩] := by
    decide +kernel
  refine ⟨hresponse, ?_⟩
  intro hkeeps
  have hparse := SampleProtobuf.sample_roundTrips.parse_serialize
    { id := 5, text := [0x6F, 0x6B], type := 1 } _ rfl
  have hcarries := hkeeps keylessPoll (by simp) _ _ rfl hparse
  rcases hcarries.1 _ (by rw [hresponse]; exact List.mem_singleton_self _) with ⟨hkey, _⟩
  have hzero : (0 : Int64) = 5 := StdLib.toString_injective hkey
  exact absurd hzero (by decide)

end Identity
end ModerationService
