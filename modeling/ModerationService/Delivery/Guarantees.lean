import ModerationService.Delivery.Broker
import ModerationService.Kafka.Identity
import ModerationService.Kafka.Published

/-!
# Guarantees — what becomes of the messages of the request topic

* `lost_iff`: a message is passed over exactly when a restart cut its processing after the offset
  behind it was committed, and then it is lost for good;
* `refines_consumeLoop`: when no restart cuts or repeats anything, the system does what `ConsumeLoop`
  does on the messages of the log;
* `saves_follow_responses` and `published_sound`: what holds of records and published verdicts
  wherever the process was killed.
-/

namespace ModerationService
namespace Delivery

open Library Library.Traced Library.Machine Library.LogConsumer TextProcessor Kafka
  Kafka.KafkaConsumer Service Handler Intake EndToEnd Published

variable {d : Deployment} {s s' : State} {as : List Action}

/-! ## One delivery -/

theorem consumer_producer (d : Deployment) : d.consumer.producer_ ≠ none := by
  simp [Deployment.consumer]

theorem effects_ends (d : Deployment) (entry : Entry) (answers : Answers) :
    Ends action (consumeOnce d.pb d.icu d.consumer (entry.poll answers)) (.ok ())
      (expected d.icu d.consumer answers (accepted d.pb d.icu answers entry.message)) := by
  have hends := consumeOnce_ends d.pb d.icu (consumer_producer d) rfl (entry.poll answers)
  simpa [pollAccepted, Entry.poll, Entry.message] using hends

theorem effects_produces (d : Deployment) (entry : Entry) (answers : Answers) :
    Ends produced (consumeOnce d.pb d.icu d.consumer (entry.poll answers)) (.ok ())
      (published d.pb d.icu d.consumer answers (accepted d.pb d.icu answers entry.message)) := by
  have hends : Ends produced (consumeOnce d.pb d.icu d.consumer (entry.poll answers)) (.ok ())
      (published d.pb d.icu d.consumer answers (pollAccepted d.pb d.icu (entry.poll answers))) :=
    consumeOnce_produces d.pb d.icu rfl rfl rfl (entry.poll answers)
  simpa [pollAccepted, Entry.poll, Entry.message] using hends

/-! ## Lost messages -/

/-- The delivery has done what the consumer does for its message, given what it was answered, from
the response to the record and without interruption. -/
def Answered (d : Deployment) (s : State) (delivery : LogConsumer.Delivery Answers Event) : Prop :=
  ∃ entry, s.broker.log[delivery.offset]? = some entry ∧
    delivery.emitted.filterMap action = expected d.icu d.consumer delivery.answer
      (accepted d.pb d.icu delivery.answer entry.message) ∧
    delivery.emitted <:+: s.broker.output

theorem answered_of_completed (h : run (step d) init as = some s)
    {delivery : LogConsumer.Delivery Answers Event} (hmem : delivery ∈ s.broker.ended)
    (hcompleted : delivery.completed = true) : Answered d s delivery := by
  have hinv := reachable_inv h
  rcases hinv.ended delivery hmem with ⟨rest, ⟨entry, hentry, heffects⟩, hrest⟩
  rw [hrest hcompleted, List.append_nil] at heffects
  refine ⟨entry, hentry, ?_, ?_⟩
  · rw [← heffects]
    exact (effects_ends d entry delivery.answer).observed
  · rw [hinv.output_eq, List.flatMap_append]
    exact (List.infix_of_mem_flatten (List.mem_map_of_mem hmem)).trans (List.infix_append_left)

/-- A message that has been passed over without having been processed to its end was cut by a restart
after its offset was committed, and it never will be; what was processed to its end was given all of
its response and its record. -/
theorem lost_iff (h : run (step d) init as = some s) (i : Nat) :
    (s.broker.Passed i ∧ ¬ s.broker.Handled i ↔
      s.broker.CutAfterCommit i ∧ ¬ s.broker.Handled i) ∧
    (∀ delivery ∈ s.broker.ended, delivery.offset = i → delivery.completed = true →
      Answered d s delivery) ∧
    (s.broker.Passed i ∧ ¬ s.broker.Handled i →
      ∀ bs s', run (step d) s bs = some s' → ¬ s'.broker.Handled i) := by
  rcases reachable_broker h with ⟨cs, hcs⟩
  have hiff := unhandled_iff hcs i
  refine ⟨hiff, fun _ hmem _ hcompleted => answered_of_completed h hmem hcompleted, ?_⟩
  intro hlost bs s' hrun
  rcases run_broker hrun with ⟨ds, hds⟩
  exact (lost_run hcs (hiff.1 hlost) hds).2

/-- A flagged comment that is neither answered nor recorded any more. -/
theorem lost_iff_cutRun :
    ∃ s, run (step sampleDeployment) init cutRun = some s ∧
      (s.broker.Passed 0 ∧ ¬ s.broker.Handled 0) ∧ s.broker.CutAfterCommit 0 ∧
      ∀ bs s', run (step sampleDeployment) s bs = some s' → ¬ s'.broker.Handled 0 := by
  have hrun : ∃ s, run (step sampleDeployment) init cutRun = some s ∧ s.broker.position = 2 ∧
      s.broker.cut.map Delivery.offset = [1] ∧
      s.broker.ended.map (fun e => (e.offset, e.completed)) = [(0, false)] :=
    ⟨_, rfl, rfl, rfl, rfl⟩
  rcases hrun with ⟨s, h, hposition, hcut, hended⟩
  have hpassed : s.broker.Passed 0 := by
    refine ⟨by rw [hposition]; decide, ?_⟩
    intro delivery hdelivery hzero
    have hmem := List.mem_map_of_mem (f := Delivery.offset) hdelivery
    rw [hcut, hzero] at hmem
    exact absurd hmem (by decide)
  have hunhandled : ¬ s.broker.Handled 0 := by
    rintro ⟨delivery, hdelivery, hzero, hcompleted⟩
    have hmem := List.mem_map_of_mem (f := fun e => (e.offset, e.completed)) hdelivery
    rw [hended, hzero, hcompleted] at hmem
    exact absurd hmem (by decide)
  rcases lost_iff h 0 with ⟨hiff, _, hforever⟩
  exact ⟨s, h, ⟨hpassed, hunhandled⟩, (hiff.1 ⟨hpassed, hunhandled⟩).1,
    hforever ⟨hpassed, hunhandled⟩⟩

/-- The message at an offset is processed once for being before the position, and once more for every
restart that went back over it; all but what a restart cut, and what is under way, was processed to
its end. -/
theorem processed_eq (h : run (step d) init as = some s) (i : Nat) :
    s.broker.ended.countP (fun e => e.offset = i ∧ e.completed = true) +
        s.broker.rewinds.countP (fun r => r.cut = some i) +
        s.broker.cut.countP (fun e => e.offset = i) =
      (if i < s.broker.position then 1 else 0) + s.broker.rewinds.countP (Rewind.covers i) := by
  rcases reachable_broker h with ⟨bs, hbs⟩
  exact handlings_eq hbs i

theorem processed_eq_cutRun :
    ∃ s, run (step sampleDeployment) init cutRun = some s ∧
      s.broker.ended.countP (fun e => e.offset = 1 ∧ e.completed = true) +
          s.broker.rewinds.countP (fun r => r.cut = some 1) +
          s.broker.cut.countP (fun e => e.offset = 1) =
        (if 1 < s.broker.position then 1 else 0) + s.broker.rewinds.countP (Rewind.covers 1) := by
  have hrun : ∃ s, run (step sampleDeployment) init cutRun = some s := ⟨_, rfl⟩
  rcases hrun with ⟨s, h⟩
  exact ⟨s, h, processed_eq h 1⟩

/-! ## Clean restarts -/

theorem flatten_zipWith_effects (d : Deployment) (log : List Entry) (answers : List Answers) :
    (List.zipWith d.effects log answers).flatten =
      (List.zipWith Entry.poll log answers).flatMap
        (fun poll => (consumeOnce d.pb d.icu d.consumer poll).trace) := by
  rw [List.flatMap_def, List.map_zipWith]
  rfl

theorem map_message_zipWith {log : List Entry} {answers : List Answers}
    (hlength : answers.length = log.length) :
    (List.zipWith Entry.poll log answers).map Poll.message =
      log.map (fun entry => some entry.message) := by
  induction log generalizing answers with
  | nil =>
      simp
  | cons entry log ih =>
      cases answers with
      | nil => cases hlength
      | cons first answers =>
          have hrest := ih (Nat.succ.inj hlength)
          simpa [Entry.poll] using hrest

/-- When every restart found nothing in flight and everything committed, the system has done what
`ConsumeLoop` does on the messages of the log, each once and in order, but for the rest of the one in
flight. -/
theorem refines_consumeLoop (h : run (step d) init as = some s)
    (hclean : ∀ r ∈ s.broker.rewinds, r.Clean) :
    ∃ polls pending,
      polls.map Poll.message =
        (s.broker.log.take s.broker.position).map (fun entry => some entry.message) ∧
      s.broker.output ++ pending = (consumeLoop d.pb d.icu d.consumer polls).trace ∧
      (s.broker.inFlight = none → pending = []) ∧
      ∀ delivery rest, s.broker.inFlight = some (delivery, rest) → pending = rest := by
  rcases reachable_broker h with ⟨bs, hbs⟩
  rcases exactly_once hbs hclean with ⟨answers, pending, hlength, houtput, hflight⟩
  have hposition := (inv_run hbs).position_le
  refine ⟨List.zipWith Entry.poll (s.broker.log.take s.broker.position) answers, pending, ?_, ?_,
    hflight⟩
  · exact map_message_zipWith (by simp [hlength, hposition])
  · rw [houtput, flatten_zipWith_effects, Identity.consumeLoop_eq (consumer_producer d) rfl]

theorem refines_consumeLoop_cleanRun :
    ∃ s, run (step sampleDeployment) init cleanRun = some s ∧ ∃ polls pending,
      polls.map Poll.message =
        (s.broker.log.take s.broker.position).map (fun entry => some entry.message) ∧
      s.broker.output ++ pending = (consumeLoop SampleProtobuf.sampleProtobuf SampleIcu.sampleIcu
        sampleDeployment.consumer polls).trace := by
  have hrun : ∃ s, run (step sampleDeployment) init cleanRun = some s ∧
      s.broker.rewinds = [⟨1, 1, none⟩] :=
    ⟨_, rfl, rfl⟩
  rcases hrun with ⟨s, h, hrewinds⟩
  have hclean : ∀ r ∈ s.broker.rewinds, r.Clean := by
    rw [hrewinds]
    simp [Rewind.Clean]
  rcases refines_consumeLoop h hclean with ⟨polls, pending, hpolls, houtput, _⟩
  exact ⟨s, h, polls, pending, hpolls, houtput⟩

/-! ## Where an event comes from -/

/-- The event was caused by a delivery of the message, while the outside gave these answers. -/
def CausedBy (s : State) (event : Event) (entry : Entry) (answers : Answers) : Prop :=
  ∃ delivery ∈ s.broker.ended ++ s.broker.cut,
    s.broker.log[delivery.offset]? = some entry ∧ delivery.answer = answers ∧
      event ∈ delivery.emitted

theorem causedBy_of_mem (hinv : LogConsumer.Inv d.effects s.broker) {event : Event}
    (hevent : event ∈ s.broker.output) :
    ∃ entry answers, CausedBy s event entry answers ∧ event ∈ d.effects entry answers := by
  rcases mem_output hinv hevent with ⟨delivery, hmem, entry, hentry, hemitted, heffects⟩
  exact ⟨entry, delivery.answer, ⟨delivery, hmem, hentry, rfl, hemitted⟩, heffects⟩

/-! ## Records -/

/-- Directly before every record stands the response under its id that told it was flagged. -/
def SavesFollowResponses (actions : List Intake.Action) : Prop :=
  ∀ pre record post, actions = pre ++ .save record :: post →
    ∃ before sent, pre = before ++ [.respond sent] ∧
      sent.key = StdLib.toString record.object_id ∧ sent.response.success = true

theorem concat_eq_append_cons {α : Type} {l pre post : List α} {a b : α}
    (h : l ++ [a] = pre ++ b :: post) :
    (l = pre ∧ a = b) ∨ ∃ post', l = pre ++ b :: post' := by
  rcases List.eq_nil_or_concat post with rfl | ⟨post', c, rfl⟩
  · left
    have hends := List.append_inj' h rfl
    exact ⟨hends.1, by simpa using hends.2⟩
  · right
    have hends := List.append_inj' (by simpa using h : l ++ [a] = (pre ++ b :: post') ++ [c]) rfl
    exact ⟨post', hends.1⟩

theorem SavesFollowResponses.respond {actions : List Intake.Action}
    (h : SavesFollowResponses actions) (sent : SentResponse) :
    SavesFollowResponses (actions ++ [.respond sent]) := by
  intro pre record post hsplit
  rcases concat_eq_append_cons hsplit with ⟨_, hsame⟩ | ⟨post', hbefore⟩
  · cases hsame
  · exact h pre record post' hbefore

theorem SavesFollowResponses.save {actions : List Intake.Action}
    (h : SavesFollowResponses actions) {sent : SentResponse} {record : ModerationRecord}
    (hkey : sent.key = StdLib.toString record.object_id) (hflagged : sent.response.success = true) :
    SavesFollowResponses (actions ++ [.respond sent, .save record]) := by
  intro pre record' post hsplit
  have hsplit' : (actions ++ [.respond sent]) ++ [.save record] = pre ++ .save record' :: post := by
    simpa using hsplit
  rcases concat_eq_append_cons hsplit' with ⟨rfl, hsame⟩ | ⟨post', hbefore⟩
  · cases hsame
    exact ⟨actions, sent, rfl, hkey, hflagged⟩
  · exact h.respond sent pre record' post' hbefore

/-- However far the processing of a message has come, no record has been asked for before its
response. -/
theorem SavesFollowResponses.started {done started rest : List Intake.Action}
    (h : SavesFollowResponses done) {answers : Answers}
    {message : Option (Int64 × ModerateObjectRequest)}
    (hstarted : started ++ rest = expected d.icu d.consumer answers message) :
    SavesFollowResponses (done ++ started) := by
  cases started with
  | nil => simpa using h
  | cons first started =>
      cases message with
      | none => cases hstarted
      | some message =>
          rcases message with ⟨request_id, request⟩
          simp only [expected, List.cons_append, List.cons.injEq] at hstarted
          rcases hstarted with ⟨rfl, hrest⟩
          split_ifs at hrest with hflagged
          · -- flagged: the record may have been asked for as well
            have hverdict : textProcessing d.icu request.text = true := by
              simp only [Bool.and_eq_true] at hflagged
              exact hflagged.2
            cases started with
            | nil => exact h.respond _
            | cons second started =>
                simp only [List.cons_append, List.cons.injEq, List.append_eq_nil_iff] at hrest
                rcases hrest with ⟨rfl, rfl, _⟩
                exact h.save rfl hverdict
          · obtain rfl := (List.append_eq_nil_iff.1 hrest).1
            exact h.respond _

/-- The record is the one of a message that was accepted and flagged in the delivery that asked
for it. -/
def RecordOfFlagged (d : Deployment) (s : State) (record : ModerationRecord) : Prop :=
  ∃ entry answers request, CausedBy s (.saveModerationResult record) entry answers ∧
    accepted d.pb d.icu answers entry.message = some (record.object_id, request) ∧
    textProcessing d.icu request.text = true ∧
    record = recordOf record.object_id request answers.now

theorem record_of_effects {entry : Entry} {answers : Answers} {record : ModerationRecord}
    (hrecord : .saveModerationResult record ∈ d.effects entry answers) :
    ∃ request, accepted d.pb d.icu answers entry.message = some (record.object_id, request) ∧
      textProcessing d.icu request.text = true ∧
      record = recordOf record.object_id request answers.now := by
  have hexpected : .save record ∈ expected d.icu d.consumer answers
      (accepted d.pb d.icu answers entry.message) := by
    rw [← (effects_ends d entry answers).observed]
    exact List.mem_filterMap.2 ⟨_, hrecord, rfl⟩
  cases haccepted : accepted d.pb d.icu answers entry.message with
  | none =>
      rw [haccepted] at hexpected
      cases hexpected
  | some message =>
      rcases message with ⟨request_id, request⟩
      simp only [haccepted, expected, List.mem_cons, reduceCtorEq, false_or] at hexpected
      split_ifs at hexpected with hflagged
      · simp only [List.mem_singleton, Intake.Action.save.injEq] at hexpected
        subst hexpected
        simp only [Bool.and_eq_true] at hflagged
        exact ⟨request, rfl, hflagged.2, rfl⟩
      · cases hexpected

/-- Wherever the process was killed: every record ever asked for is the one of an accepted, flagged
message, and follows directly on the response that said so. -/
theorem saves_follow_responses (h : run (step d) init as = some s) :
    SavesFollowResponses (s.broker.output.filterMap action) ∧
      ∀ record, .saveModerationResult record ∈ s.broker.output → RecordOfFlagged d s record := by
  have hinv := reachable_inv h
  refine ⟨?_, ?_⟩
  · refine output_induction (P := fun output => SavesFollowResponses (output.filterMap action))
      hinv ?_ ?_
    · intro pre record post hsplit
      simp at hsplit
    · intro done entry answers started rest _ heffects hdone
      have hstarted : started.filterMap action ++ rest.filterMap action =
          expected d.icu d.consumer answers (accepted d.pb d.icu answers entry.message) := by
        rw [← (effects_ends d entry answers).observed, ← List.filterMap_append, ← heffects]
        rfl
      rw [List.filterMap_append]
      exact hdone.started hstarted
  · intro record hrecord
    rcases causedBy_of_mem hinv hrecord with ⟨entry, answers, hcaused, heffects⟩
    rcases record_of_effects heffects with ⟨request, haccepted, hflagged, hsame⟩
    exact ⟨entry, answers, request, hcaused, haccepted, hflagged, hsame⟩

/-- The flagged comment has a record. -/
theorem saves_follow_responses_cleanRun :
    ∃ s record, run (step sampleDeployment) init cleanRun = some s ∧
      .saveModerationResult record ∈ s.broker.output ∧ record.object_id = 0 ∧
      SavesFollowResponses (s.broker.output.filterMap action) ∧
      RecordOfFlagged sampleDeployment s record := by
  have hrun : ∃ s record, run (step sampleDeployment) init cleanRun = some s ∧
      s.broker.output[2]? = some (.saveModerationResult record) ∧ record.object_id = 0 :=
    ⟨_, _, rfl, rfl, rfl⟩
  rcases hrun with ⟨s, record, h, hthird, hid⟩
  have hsave : .saveModerationResult record ∈ s.broker.output := List.mem_of_getElem? hthird
  rcases saves_follow_responses h with ⟨hfollow, hrecords⟩
  exact ⟨s, record, h, hsave, hid, hfollow, hrecords record hsave⟩

/-! ## Published verdicts -/

/-- The message is the verdict on the text of `entry`, under the id that is read for its key. -/
def VerdictOn (d : Deployment) (entry : Entry) (answers : Answers) (message : ProducedMessage) :
    Prop :=
  message.topic = d.config.result_topic ∧ ∃ request_id request,
    accepted d.pb d.icu answers entry.message = some (request_id, request) ∧
    message.key = StdLib.toString request_id ∧
    d.pb.serializeResponse { success := textProcessing d.icu request.text } = some message.payload

theorem verdictOn_of_effects {entry : Entry} {answers : Answers} {message : ProducedMessage}
    (hmessage : .produced message ∈ d.effects entry answers) : VerdictOn d entry answers message := by
  have hpublished : message ∈ published d.pb d.icu d.consumer answers
      (accepted d.pb d.icu answers entry.message) := by
    rw [← (effects_produces d entry answers).observed]
    exact List.mem_filterMap.2 ⟨_, hmessage, rfl⟩
  cases haccepted : accepted d.pb d.icu answers entry.message with
  | none =>
      rw [haccepted] at hpublished
      cases hpublished
  | some message' =>
      rcases message' with ⟨request_id, request⟩
      simp only [haccepted, published, written] at hpublished
      cases hpayload : d.pb.serializeResponse { success := textProcessing d.icu request.text } with
      | none =>
          rw [hpayload] at hpublished
          cases hpublished
      | some payload =>
          simp only [hpayload] at hpublished
          split_ifs at hpublished
          · obtain rfl := List.mem_singleton.1 hpublished
            exact ⟨rfl, request_id, request, haccepted, rfl, hpayload⟩
          · cases hpublished

/-- Wherever the process was killed: every message the consumer has written went to the result topic,
and is the verdict on the text of a message that was accepted in the delivery that wrote it. -/
theorem published_sound (h : run (step d) init as = some s) {message : ProducedMessage}
    (hmessage : .produced message ∈ s.broker.output) :
    ∃ entry answers, CausedBy s (.produced message) entry answers ∧
      VerdictOn d entry answers message := by
  rcases causedBy_of_mem (reachable_inv h) hmessage with ⟨entry, answers, hcaused, heffects⟩
  exact ⟨entry, answers, hcaused, verdictOn_of_effects heffects⟩

theorem published_sound_cleanRun :
    ∃ s message, run (step sampleDeployment) init cleanRun = some s ∧
      .produced message ∈ s.broker.output ∧ ∃ entry answers,
        CausedBy s (.produced message) entry answers ∧
          VerdictOn sampleDeployment entry answers message := by
  have hrun : ∃ s message, run (step sampleDeployment) init cleanRun = some s ∧
      s.broker.output[1]? = some (.produced message) :=
    ⟨_, _, rfl, rfl⟩
  rcases hrun with ⟨s, message, h, hsecond⟩
  have hmessage : .produced message ∈ s.broker.output := List.mem_of_getElem? hsecond
  exact ⟨s, message, h, hmessage, published_sound h hmessage⟩

end Delivery
end ModerationService
