import ModerationService.Kafka.Failures
import ModerationService.Kafka.Identity
import ModerationService.Repository.Repository

/-!
# Table — the records in the database, over every run of the consume loop

`ModerationRepository` stands behind `IModerationRepository`: what `SaveModerationResult` answers in
a poll is what the repository returns for the answers of the database.

* `table_run`: the rows of a run are those of its accepted, flagged messages whose transaction was
  committed, in order;
* `saves_truthful`: a flagged message without a row has a log line that says so.
-/

namespace ModerationService
namespace Repository

open Library Library.Traced Library.Transaction TextProcessor Kafka Kafka.KafkaConsumer Service Intake
  Failures

variable {repository : ModerationRepository}

/-! ## The repository behind the interface -/

def outcome (p : DbProgram Bool) : SaveOutcome :=
  match p.result with
  | .ok saved => .returns saved
  | .error e => .throws e

/-- A poll, with what the database answers in case a record is saved. -/
structure Visit (repository : ModerationRepository) where
  poll : Poll
  db : DbAnswers
  agrees : ∀ record, poll.answers.save = outcome (saveModerationResult repository db record)

/-- What the database sees of a program. -/
def database (repository : ModerationRepository) (db : DbAnswers) (p : Program Unit) :
    List (Op Row) :=
  p.trace.flatMap (fun event =>
    match event with
    | .saveModerationResult record => ops (saveModerationResult repository db record)
    | _ => [])

variable (pb : Protobuf) (icu : Icu)

/-- What the database sees of a run. -/
def databaseRun (consumer : KafkaConsumer) (visits : List (Visit repository)) : List (Op Row) :=
  visits.flatMap (fun visit => database repository visit.db (consumeOnce pb icu consumer visit.poll))

/-- The row of a poll: its message is accepted and flagged, the service is alive, and the transaction
has been committed. -/
def Visit.row (visit : Visit repository) : Option Row :=
  if stored repository visit.db && visit.poll.answers.serviceAlive then
    (flaggedRecordOf pb icu visit.poll).map params
  else
    none

theorem Visit.save_eq (visit : Visit repository) :
    visit.poll.answers.save = .returns (saved repository visit.db) := by
  have hspec := fun record => (saveModerationResult_spec repository visit.db record).1
  -- what the repository returns is the same for every record
  rw [visit.agrees ⟨0, 0, [], true, 0, ""⟩, outcome, hspec]

/-! ## The table -/

/-- The database sees the records that the program asks for, and nothing else. -/
theorem database_eq (db : DbAnswers) (p : Program Unit) :
    database repository db p =
      (records p).flatMap (fun record => ops (saveModerationResult repository db record)) := by
  unfold database records
  induction p.trace with
  | nil =>
      rfl
  | cons event events ih =>
      rw [List.flatMap_cons, ih]
      cases event <;> rfl

theorem writes_visit {consumer : KafkaConsumer} (hproducer : consumer.producer_ ≠ none)
    (hcallback : consumer.callback_ = some resultCallback) (visit : Visit repository) :
    Writes (database repository visit.db (consumeOnce pb icu consumer visit.poll))
      (visit.row pb icu).toList := by
  rw [database_eq, records, (consumeOnce_ends pb icu hproducer hcallback visit.poll).observed,
    expected_record]
  have hblocks : ∀ asked : List ModerationRecord,
      Writes (asked.flatMap (fun record => ops (saveModerationResult repository visit.db record)))
        (asked.flatMap (fun record => if stored repository visit.db then [params record] else [])) :=
    fun asked => Writes.flatMap
      (fun record _ => (saveModerationResult_spec repository visit.db record).2)
  -- there is one record at most, so the blocks are the one of the row, or none
  have hasked := hblocks (if visit.poll.answers.serviceAlive then
    (flaggedRecordOf pb icu visit.poll).toList else [])
  have hrow : (if visit.poll.answers.serviceAlive = true then
      (flaggedRecordOf pb icu visit.poll).toList else []).flatMap
        (fun record => if stored repository visit.db then [params record] else []) =
      (visit.row pb icu).toList := by
    unfold Visit.row
    cases stored repository visit.db <;> cases visit.poll.answers.serviceAlive <;>
      cases flaggedRecordOf pb icu visit.poll <;> simp
  rw [← hrow]
  exact hasked

/-- Truncating to seconds keeps the order of points in time. -/
theorem row_le_of_now_le {visit visit' : Visit repository}
    (h : visit.poll.answers.now ≤ visit'.poll.answers.now) {row row' : Row}
    (hrow : visit.row pb icu = some row) (hrow' : visit'.row pb icu = some row') :
    row.moderated_at ≤ row'.moderated_at := by
  have hstamp : ∀ {v : Visit repository} {r : Row}, v.row pb icu = some r →
      r.moderated_at = seconds v.poll.answers.now := by
    intro v r hr
    simp only [Visit.row, Option.ite_none_right_eq_some, Option.map_eq_some_iff] at hr
    rcases hr with ⟨_, record, hrecord, rfl⟩
    rcases Option.bind_eq_some_iff.1 hrecord with ⟨message, _, hflagged⟩
    -- the record of a flagged message has the time of its poll
    split_ifs at hflagged
    cases hflagged
    rfl
  rw [hstamp hrow, hstamp hrow']
  exact Int.tdiv_le_tdiv (by decide) h

theorem flatMap_toList {α β : Type} (f : α → Option β) (xs : List α) :
    xs.flatMap (fun x => (f x).toList) = xs.filterMap f := by
  rw [List.filterMap_eq_flatMap_toList]

/-- Over any run, the table gets one row for each accepted, flagged message whose transaction was
committed, in the order of the messages, and no transaction stays open.  As long as the clock is not
set back, the rows are in the order of their time stamps. -/
theorem table_run {consumer : KafkaConsumer} (hproducer : consumer.producer_ ≠ none)
    (hcallback : consumer.callback_ = some resultCallback) (visits : List (Visit repository))
    (table : List Row) :
    (Store.settled table).replay (databaseRun pb icu consumer visits) =
      .settled (table ++ visits.filterMap (Visit.row pb icu)) ∧
    (visits.Pairwise (fun visit visit' => visit.poll.answers.now ≤ visit'.poll.answers.now) →
      (visits.filterMap (Visit.row pb icu)).Pairwise
        (fun row row' => row.moderated_at ≤ row'.moderated_at)) := by
  have hwrites : Writes (databaseRun pb icu consumer visits)
      (visits.flatMap (fun visit => (visit.row pb icu).toList)) :=
    Writes.flatMap (fun visit _ => writes_visit pb icu hproducer hcallback visit)
  refine ⟨?_, ?_⟩
  · rw [hwrites table, flatMap_toList]
  · intro hclock
    rw [List.pairwise_filterMap]
    refine hclock.imp (fun hnow row hrow row' hrow' => ?_)
    exact row_le_of_now_le pb icu hnow hrow hrow'

def sampleRepository : ModerationRepository where
  db_connection_ := true

/-- A flagged message. -/
def sampleVisit (db : DbAnswers) : Visit sampleRepository where
  poll := ⟨some sampleMessage,
    ⟨errNoError, fun _ => none, .returns (saved sampleRepository db), true, 1700000000123456789,
      SampleProtobuf.sampleKeyObject []⟩⟩
  db := db
  agrees record := by rw [outcome, (saveModerationResult_spec sampleRepository db record).1]

/-- The connection is closed, then a transaction goes through, and in the end one is in doubt. -/
def sampleVisits : List (Visit sampleRepository) :=
  [sampleVisit ⟨false, none, .ok 0, .committed⟩, sampleVisit ⟨true, none, .ok 0, .committed⟩,
    sampleVisit ⟨true, none, .ok 0, .inDoubt ⟨"in_doubt_error"⟩ true⟩]

theorem table_run_sample :
    (Store.settled []).replay (databaseRun SampleProtobuf.sampleProtobuf SampleIcu.sampleIcu
        sampleConsumer sampleVisits) =
      .settled (sampleVisits.filterMap
        (Visit.row SampleProtobuf.sampleProtobuf SampleIcu.sampleIcu)) ∧
    (sampleVisits.filterMap (Visit.row SampleProtobuf.sampleProtobuf SampleIcu.sampleIcu)).map
      Row.moderated_at = [1700000000, 1700000000] := by
  have hproducer : sampleConsumer.producer_ ≠ none := by
    simp [sampleConsumer]
  refine ⟨?_, by decide +kernel⟩
  exact (table_run SampleProtobuf.sampleProtobuf SampleIcu.sampleIcu hproducer rfl sampleVisits []).1

/-! ## What the log says about it -/

/-- The line of `SaveResultToDatabase` when the repository returns false. -/
def saveResultFail : Event :=
  .logError .kRepository (.named "SAVE_RESULT_FAIL")

/-- The line of `HandleModerationResult` when something below it throws. -/
def handleResultFail : Event :=
  .logError .kService (.named "HANDLE_RESULT_FAIL")

/-- The line of the callback when something below it throws. -/
def kafkaCallbackFail : Event :=
  .logError .kKafka (.named "KAFKA_CALLBACK_FAIL")

/-- None of the three. -/
def Unrelated (event : Event) : Prop :=
  event ≠ saveResultFail ∧ event ≠ handleResultFail ∧ event ≠ kafkaCallbackFail

section Before

variable (answers : Answers)

theorem logError_unrelated {subsystem : Subsystem} {code : LogCode}
    (h : Unrelated (.logError subsystem code)) : Only Unrelated (logError subsystem code) :=
  Only.emit h

theorem logError_then_unrelated {α : Type} {subsystem : Subsystem} {code : LogCode}
    (h : Unrelated (.logError subsystem code)) (a : α) :
    Only Unrelated (do logError subsystem code; return a) :=
  (logError_unrelated h).bind (fun _ _ => Only.pure a)

theorem kafka_unrelated (error : ErrorCode) : Unrelated (.logError .kKafka (.kafka error)) := by
  simp [Unrelated, saveResultFail, handleResultFail, kafkaCallbackFail]

theorem named_unrelated {subsystem : Subsystem} {name : String}
    (h : name ∉ ["SAVE_RESULT_FAIL", "HANDLE_RESULT_FAIL", "KAFKA_CALLBACK_FAIL"]) :
    Unrelated (.logError subsystem (.named name)) := by
  simp only [List.mem_cons, List.not_mem_nil, or_false, not_or] at h
  simp [Unrelated, saveResultFail, handleResultFail, kafkaCallbackFail, h]

theorem requestId_unrelated (message : RdKafkaMessage) :
    Only Unrelated (requestId answers message) := by
  unfold requestId
  cases keyStr answers message with
  | none => exact Only.pure _
  | some key_str =>
      dsimp only
      split_ifs
      · exact logError_then_unrelated (named_unrelated (by decide)) _
      · refine Only.tryCatch ?_ (fun _ => logError_then_unrelated (named_unrelated (by decide)) _)
        exact Only.bind (Only.ofExcept _) (fun _ _ => Only.pure _)
      · exact Only.pure _

theorem flagged_unrelated (text : StdString) : Only Unrelated (flagged icu answers text) := by
  unfold flagged
  refine Only.tryCatch ?_ (fun _ => logError_then_unrelated (named_unrelated (by decide)) _)
  exact Only.bind (Only.ofExcept _) (fun _ _ => Only.pure _)

theorem sendResponseAsync_unrelated (producer : KafkaProducer) (response : ModerateObjectResponse)
    (topic key : StdString) :
    Only Unrelated (producer.sendResponseAsync pb answers response topic key) := by
  unfold KafkaProducer.sendResponseAsync
  -- an event that is no log line
  have hquiet : ∀ event, (∀ subsystem code, event ≠ .logError subsystem code) → Unrelated event :=
    fun event h => ⟨h _ _, h _ _, h _ _⟩
  refine Only.bind (Only.emit (hquiet _ (by simp))) (fun _ _ => ?_)
  split_ifs
  · exact logError_then_unrelated (named_unrelated (by decide)) _
  · exact logError_then_unrelated (named_unrelated (by decide)) _
  · cases pb.serializeResponse response with
    | none => exact logError_then_unrelated (named_unrelated (by decide)) _
    | some payload =>
        refine Only.bind ?_ (fun error _ => ?_)
        · unfold KafkaProducer.produce
          split_ifs
          · exact Only.bind (Only.emit (hquiet _ (by simp))) (fun _ _ => Only.pure _)
          · exact Only.pure _
        · split_ifs
          · exact logError_then_unrelated (kafka_unrelated _) _
          · exact Only.pure true

theorem respond_unrelated (consumer : KafkaConsumer) (response : ModerateObjectResponse)
    (request_id : Int64) : Only Unrelated (respond pb consumer answers response request_id) := by
  unfold respond
  cases consumer.producer_ with
  | none => exact logError_unrelated (named_unrelated (by decide))
  | some producer_ =>
      refine (sendResponseAsync_unrelated pb answers producer_ response _ _).bind (fun sent _ => ?_)
      cases sent with
      | false => exact logError_unrelated (named_unrelated (by decide))
      | true => exact Only.pure ()

end Before

/-- The repository answers, so the callback catches nothing. -/
theorem resultCallback_trace {answers : Answers} {saved : Bool}
    (hsave : answers.save = .returns saved) (response : ModerateObjectResponse) (request_id : Int64)
    (text : StdString) (object_type : ObjectType) :
    (resultCallback answers response request_id text object_type).trace =
      if answers.serviceAlive then
        if response.success then
          .saveModerationResult ⟨request_id, object_type, text, true, answers.now, violationReason⟩ ::
            if saved then [] else [saveResultFail]
        else
          []
      else
        [.logError .kService (.named "SERVICE_EXPIRED")] := by
  rcases answers with ⟨produce, fault, save, serviceAlive, now, keyObject⟩
  rcases response with ⟨success⟩
  subst hsave
  -- one trace for each way through the callback
  cases serviceAlive <;> cases success <;> cases saved <;> rfl

/-- The two handlers have nothing to catch, and a record that is reported lost was not saved. -/
def Truthful (saved : Bool) (event : Event) : Prop :=
  event ≠ handleResultFail ∧ event ≠ kafkaCallbackFail ∧ (event = saveResultFail → saved = false)

theorem Unrelated.truthful {saved : Bool} {event : Event} (h : Unrelated event) :
    Truthful saved event :=
  ⟨h.2.1, h.2.2, fun hfail => (h.1 hfail).elim⟩

theorem resultCallback_truthful {answers : Answers} {saved : Bool}
    (hsave : answers.save = .returns saved) (response : ModerateObjectResponse) (request_id : Int64)
    (text : StdString) (object_type : ObjectType) :
    Only (Truthful saved) (resultCallback answers response request_id text object_type) := by
  intro event hevent
  rw [resultCallback_trace hsave] at hevent
  split_ifs at hevent with _ _ hsaved
  · obtain rfl := List.mem_singleton.1 hevent
    simp [Truthful, handleResultFail, kafkaCallbackFail, saveResultFail]
  · rcases List.mem_cons.1 hevent with rfl | hfail
    · simp [Truthful, handleResultFail, kafkaCallbackFail, saveResultFail]
    · obtain rfl := List.mem_singleton.1 hfail
      simp [Truthful, handleResultFail, kafkaCallbackFail, saveResultFail, hsaved]
  · cases hevent
  · obtain rfl := List.mem_singleton.1 hevent
    exact (named_unrelated (by decide)).truthful

theorem consumeOnce_truthful {consumer : KafkaConsumer}
    (hcallback : consumer.callback_ = some resultCallback) {poll : Poll} {saved : Bool}
    (hsave : poll.answers.save = .returns saved) :
    Only (Truthful saved) (consumeOnce pb icu consumer poll) := by
  have hquiet : ∀ event, Unrelated event → Truthful saved event := fun _ => Unrelated.truthful
  have hlog : ∀ {name : String}, name ∉ ["SAVE_RESULT_FAIL", "HANDLE_RESULT_FAIL",
      "KAFKA_CALLBACK_FAIL"] → Only (Truthful saved) (logError .kKafka (.named name)) :=
    fun h => (logError_unrelated (named_unrelated h)).imp hquiet
  unfold consumeOnce
  cases poll.message with
  | none => exact Only.pure ()
  | some message =>
      dsimp only
      split_ifs
      -- the checks in the order of the source, and the callback at the end
      · unfold processMessage processPayload
        refine ((requestId_unrelated poll.answers message).imp hquiet).bind (fun request_id _ => ?_)
        cases request_id with
        | none => exact Only.pure ()
        | some request_id =>
            cases pb.parseRequest message.payload with
            | none => exact hlog (by decide)
            | some request =>
                dsimp only
                split_ifs
                · exact (hlog (by decide)).bind (fun _ _ => Only.pure ())
                · exact (hlog (by decide)).bind (fun _ _ => Only.pure ())
                · refine ((flagged_unrelated icu poll.answers request.text).imp hquiet).bind
                    (fun verdict _ => ?_)
                  cases verdict with
                  | none => exact Only.pure ()
                  | some isFlagged =>
                      refine ((respond_unrelated pb poll.answers consumer _ request_id).imp
                        hquiet).bind (fun _ _ => ?_)
                      rw [hcallback]
                      exact resultCallback_truthful hsave _ _ _ _
      · exact Only.pure ()
      · exact Only.pure ()
      · exact (logError_unrelated (kafka_unrelated _)).imp hquiet

/-- An accepted message is admitted, and its text was processed. -/
theorem admitted_of_accepted {answers : Answers} {message : RdKafkaMessage} {request_id : Int64}
    {request : ModerateObjectRequest}
    (h : accepted pb icu answers message = some (request_id, request)) :
    Admitted pb answers message request_id request ∧ ¬ Throws answers.fault := by
  have hparts := Identity.accepted_eq_some h
  unfold accepted acceptedUnder at h
  rw [hparts.1, hparts.2] at h
  simp only [Option.ite_none_right_eq_some] at h
  rcases h with ⟨⟨hvalid, hspecified, hok⟩, _⟩
  refine ⟨⟨hparts.1, hparts.2, hvalid, hspecified⟩, ?_⟩
  -- a stage that throws would make `TextProcessing` throw
  intro hthrows
  rcases tryTextProcessing_throws icu hthrows request.text with ⟨e, herror⟩
  rw [herror] at hok
  cases hok

/-- A flagged message whose record was not saved is reported. -/
theorem unsaved_reported {consumer : KafkaConsumer} (hproducer : consumer.producer_ ≠ none)
    (hcallback : consumer.callback_ = some resultCallback) {poll : Poll}
    (hsave : poll.answers.save = .returns false) (halive : poll.answers.serviceAlive = true)
    {record : ModerationRecord} (hrecord : flaggedRecordOf pb icu poll = some record) :
    saveResultFail ∈ (consumeOnce pb icu consumer poll).trace := by
  rcases Option.bind_eq_some_iff.1 hrecord with ⟨⟨request_id, request⟩, haccepted, hflagged⟩
  have hverdict : textProcessing icu request.text = true := by
    by_contra hpassed
    simp [hpassed] at hflagged
  rcases hmessage : poll.message with _ | message
  · simp [pollAccepted, hmessage] at haccepted
  · simp only [pollAccepted, hmessage, Option.ite_none_right_eq_some] at haccepted
    rcases haccepted with ⟨herr, haccepted⟩
    rcases admitted_of_accepted pb icu haccepted with ⟨hadmitted, hthrows⟩
    simp only [consumeOnce, hmessage, herr, if_true]
    rw [processMessage_returns icu consumer hadmitted hthrows]
    have hresponded := (respond_ends pb poll.answers hproducer
      { success := textProcessing icu request.text } request_id).result
    simp only [hcallback]
    -- the line comes from the callback, after the response
    rw [bind_of_ok hresponded]
    refine List.mem_append_right _ ?_
    simp [resultCallback_trace hsave, halive, hverdict]

/-- Over any run, a flagged message of a live service that has no row in the end has a log line that
says so, and the handlers above the repository never have anything to catch. -/
theorem saves_truthful {consumer : KafkaConsumer} (hproducer : consumer.producer_ ≠ none)
    (hcallback : consumer.callback_ = some resultCallback) (visits : List (Visit repository))
    (table : List Row) {visit : Visit repository} (hvisit : visit ∈ visits) :
    handleResultFail ∉ (consumeOnce pb icu consumer visit.poll).trace ∧
    kafkaCallbackFail ∉ (consumeOnce pb icu consumer visit.poll).trace ∧
    ∀ record, flaggedRecordOf pb icu visit.poll = some record →
      visit.poll.answers.serviceAlive = true →
      (saveResultFail ∈ (consumeOnce pb icu consumer visit.poll).trace ↔
        saved repository visit.db = false) ∧
      (saveResultFail ∉ (consumeOnce pb icu consumer visit.poll).trace →
        params record ∈
          ((Store.settled table).replay (databaseRun pb icu consumer visits)).rows) := by
  have htruthful := consumeOnce_truthful pb icu hcallback visit.save_eq
  refine ⟨fun h => (htruthful _ h).1 rfl, fun h => (htruthful _ h).2.1 rfl, ?_⟩
  intro record hrecord halive
  have hreported : saveResultFail ∈ (consumeOnce pb icu consumer visit.poll).trace ↔
      saved repository visit.db = false := by
    constructor
    · exact fun h => (htruthful _ h).2.2 rfl
    · intro hunsaved
      have hsave := visit.save_eq
      rw [hunsaved] at hsave
      exact unsaved_reported pb icu hproducer hcallback hsave halive hrecord
  refine ⟨hreported, ?_⟩
  intro hunreported
  have hsaved : saved repository visit.db = true := by
    simpa using fun h => hunreported (hreported.2 h)
  rw [(table_run pb icu hproducer hcallback visits table).1]
  refine List.mem_append_right _ (List.mem_filterMap.2 ⟨visit, hvisit, ?_⟩)
  simp [Visit.row, stored_of_saved hsaved, halive, hrecord]

/-- The first message has no row, and is reported. -/
theorem saves_truthful_sample :
    saveResultFail ∈ (consumeOnce SampleProtobuf.sampleProtobuf SampleIcu.sampleIcu sampleConsumer
      (sampleVisit ⟨false, none, .ok 0, .committed⟩).poll).trace := by
  have hproducer : sampleConsumer.producer_ ≠ none := by
    simp [sampleConsumer]
  have hvisit : sampleVisit ⟨false, none, .ok 0, .committed⟩ ∈ sampleVisits := by
    simp [sampleVisits]
  have hrecord : flaggedRecordOf SampleProtobuf.sampleProtobuf SampleIcu.sampleIcu
      (sampleVisit ⟨false, none, .ok 0, .committed⟩).poll =
        some (recordOf 0 sampleRequest 1700000000123456789) := by
    decide +kernel
  rcases saves_truthful SampleProtobuf.sampleProtobuf SampleIcu.sampleIcu hproducer rfl sampleVisits
    [] hvisit with ⟨_, _, hrecords⟩
  exact (hrecords _ hrecord rfl).1.2 rfl

end Repository
end ModerationService
