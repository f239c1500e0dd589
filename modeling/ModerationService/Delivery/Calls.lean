import ModerationService.Delivery.Guarantees

/-!
# Calls — what becomes of gRPC calls in the log

With a result topic of its own the consumer never reads what it has written (`no_feedback`).  For each
call answered OK librdkafka has taken one message, in the order of the calls; whatever of it has
arrived in the log, none of these messages ever causes a response or a record (`calls_rejected`).
-/

namespace ModerationService
namespace Delivery

open Library Library.Traced Library.Machine Library.LogConsumer TextProcessor Kafka
  Kafka.KafkaConsumer Service Handler Intake EndToEnd Published

variable {d : Deployment} {s s' : State} {as : List Action}

/-! ## The consumer's own messages -/

theorem origin_of_mem_entries {config : KafkaConfig} {origin : Origin}
    {messages : List ProducedMessage} {entry : Entry} (h : entry ∈ entries config origin messages) :
    entry.origin = origin := by
  rcases List.mem_map.1 h with ⟨message, _, rfl⟩
  rfl

/-- Where every message comes from: outside, or librdkafka. -/
def Arrived (s : State) : Prop :=
  ∀ entry ∈ s.broker.log, entry.origin = .outside ∨ entry ∈ s.queued

theorem arrived_run (h : run (step d) init as = some s) : Arrived s := by
  refine run_history (J := fun _ s => Arrived s) (by simp [Arrived, init, LogConsumer.init]) ?_ h
  intro as s a s' _ hs hstep
  rcases step_cases hstep with ⟨key, payload, rfl⟩ | ⟨request, answers, status, response, _, rfl⟩ |
    ⟨arrived, harrived, rfl⟩ | ⟨b, hb, hbroker, _, hqueued⟩
  · intro entry hentry
    rcases List.mem_append.1 hentry with hold | hnew
    · exact hs entry hold
    · rw [List.mem_singleton.1 hnew]
      exact Or.inl rfl
  · intro entry hentry
    exact (hs entry hentry).imp_right (List.mem_append_left _)
  · intro entry hentry
    rcases List.mem_append.1 hentry with hold | hnew
    · exact hs entry hold
    · rw [List.mem_singleton.1 hnew]
      exact Or.inr harrived
  · -- the consumer reads the log and does not write to it
    intro entry hentry
    rw [step_log hb hbroker] at hentry
    rcases hqueued with hsame | hmore
    · rw [hsame]
      exact hs entry hentry
    · rw [hmore]
      exact (hs entry hentry).imp_right (List.mem_append_left _)

/-- What the consumer hands to librdkafka for the request topic is a verdict. -/
theorem producing_topic (hinv : LogConsumer.Inv d.effects s.broker) {entry : Entry}
    (hentry : entry ∈ entries d.config .consumer s.producing) :
    d.config.request_topic = d.config.result_topic := by
  rcases List.mem_map.1 hentry with ⟨message, hmessage, _⟩
  rcases List.mem_filter.1 hmessage with ⟨hproducing, htopic⟩
  rcases producing_of_flight hinv hproducing with ⟨source, answers, hevent⟩
  have hverdict := verdictOn_of_effects hevent
  exact (of_decide_eq_true htopic).symm.trans hverdict.1

/-- With a result topic of its own, the consumer never writes to the log it reads. -/
theorem no_feedback (hne : d.config.request_topic ≠ d.config.result_topic)
    (h : run (step d) init as = some s) : ∀ entry ∈ s.broker.log, entry.origin ≠ .consumer := by
  -- nothing in the log that librdkafka has not taken, and it takes none of the consumer's messages
  have hqueued : ∀ entry ∈ s.queued, entry.origin ≠ .consumer := by
    refine (run_history (J := fun as s => ∀ entry ∈ s.queued, entry.origin ≠ .consumer) ?_ ?_ h)
    · simp [init]
    · intro as s a s' hrun hs hstep
      have hinv := reachable_inv hrun
      rcases step_cases hstep with ⟨_, _, rfl⟩ | ⟨request, answers, status, response, _, rfl⟩ |
        ⟨_, _, rfl⟩ | ⟨b, _, _, _, hqueued⟩
      · exact hs
      · intro entry hentry
        rcases List.mem_append.1 hentry with hold | hnew
        · exact hs entry hold
        · rw [origin_of_mem_entries hnew]
          simp
      · exact hs
      · intro entry hentry
        rcases hqueued with hsame | hmore
        · rw [hsame] at hentry
          exact hs entry hentry
        · rw [hmore] at hentry
          rcases List.mem_append.1 hentry with hold | hnew
          · exact hs entry hold
          · exact absurd (producing_topic hinv hnew) hne
  intro entry hentry
  rcases arrived_run h entry hentry with houtside | hmem
  · simp [houtside]
  · exact hqueued entry hmem

theorem no_feedback_cleanRun :
    ∃ s, run (step sampleDeployment) init cleanRun = some s ∧ s.broker.log.length = 2 ∧
      ∀ entry ∈ s.broker.log, entry.origin ≠ .consumer := by
  have hrun : ∃ s, run (step sampleDeployment) init cleanRun = some s ∧ s.broker.log.length = 2 :=
    ⟨_, rfl, rfl⟩
  rcases hrun with ⟨s, h, hlength⟩
  exact ⟨s, h, hlength, no_feedback (by decide) h⟩

/-! ## The messages of the calls -/

/-- The topic of a message that the event produces is `topic`. -/
def ToTopic (topic : StdString) (event : Event) : Prop :=
  ∀ message ∈ produced event, message.topic = topic

section Topics

variable {topic : StdString}

theorem logError_toTopic (subsystem : Subsystem) (code : LogCode) :
    Only (ToTopic topic) (logError subsystem code) :=
  Only.emit (by simp [ToTopic, produced])

theorem logError_then_toTopic {α : Type} (subsystem : Subsystem) (code : LogCode) (a : α) :
    Only (ToTopic topic) (do logError subsystem code; return a) :=
  (logError_toTopic subsystem code).bind (fun _ _ => Only.pure a)

/-- The two topics that `SendRequestAsync` chooses from are the same. -/
theorem sendRequestAsync_toTopic (d : Deployment) (answers : Answers)
    (request : ModerateObjectRequest) :
    Only (ToTopic d.config.request_topic) (d.client.sendRequestAsync d.pb answers request) := by
  show Only _ (d.producer.sendRequestAsync d.pb answers request d.config.request_topic)
  unfold KafkaProducer.sendRequestAsync
  have htarget : (if d.config.request_topic.isEmpty = true then d.producer.topic_name_
      else d.config.request_topic) = d.config.request_topic := ite_self _
  dsimp only
  rw [htarget]
  split_ifs
  · exact logError_then_toTopic _ _ false
  · exact logError_then_toTopic _ _ false
  · cases d.pb.serializeRequest request with
    | none => exact logError_then_toTopic _ _ false
    | some payload =>
        refine Only.bind ?_ (fun error _ => ?_)
        · unfold KafkaProducer.produce
          split_ifs
          · exact Only.bind (Only.emit (by simp [ToTopic, produced])) (fun _ _ => Only.pure _)
          · exact Only.pure _
        · split_ifs
          · exact logError_then_toTopic _ _ false
          · exact Only.pure true

theorem moderateObject_toTopic (d : Deployment) (answers : Answers)
    (request : ModerateObjectRequest) :
    Only (ToTopic d.config.request_topic) (moderateObject d.pb d.service answers request) := by
  unfold moderateObject
  split_ifs
  · exact logError_then_toTopic _ _ _
  · refine Only.bind ?_ (fun success _ => ?_)
    · unfold processModerationRequest
      refine Only.tryCatch ?_ (fun _ => logError_then_toTopic _ _ false)
      split_ifs
      refine (sendRequestAsync_toTopic d answers _).bind (fun sent _ => ?_)
      cases sent with
      | false => exact logError_then_toTopic _ _ false
      | true => exact Only.pure true
    · cases success with
      | false => exact logError_then_toTopic _ _ _
      | true => exact Only.pure _

end Topics

/-- A call hands over one message when it is answered OK, and none otherwise. -/
theorem call_entries {request : ModerateObjectRequest} {answers : Answers} {status : Status}
    {response : ModerateObjectResponse}
    (h : (moderateObject d.pb d.service answers request).result = .ok (status, response)) :
    (status.code = .ok ∧ ∃ payload,
      d.pb.serializeRequest { id := request.id, text := request.text } = some payload ∧
      entries d.config (.call request) (messages (moderateObject d.pb d.service answers request)) =
        [⟨.call request, some (StdLib.toString request.id), payload⟩]) ∨
    (status.code ≠ .ok ∧
      entries d.config (.call request) (messages (moderateObject d.pb d.service answers request)) =
        []) := by
  rcases moderateObject_ends d.pb answers request d.service with ⟨status', _, sent, hends, hmessage⟩
  have hstatus : status' = status := by
    rw [hends.result] at h
    exact congrArg Prod.fst (Except.ok.inj h)
  have hmessages : messages (moderateObject d.pb d.service answers request) = sent := hends.observed
  subst hstatus
  rw [hmessages]
  by_cases hcode : status'.code = .ok
  · left
    simp only [MessageFor, hcode, decide_true, if_true] at hmessage
    rcases hmessage with ⟨topic, payload, hpayload, rfl⟩
    -- the filter keeps it: it goes to the request topic
    have hmem : (⟨topic, payload, StdLib.toString request.id⟩ : ProducedMessage) ∈
        messages (moderateObject d.pb d.service answers request) := by
      rw [hmessages]
      exact List.mem_singleton_self _
    rcases List.mem_filterMap.1 hmem with ⟨event, hevent, hproduced⟩
    have htopic : topic = d.config.request_topic :=
      moderateObject_toTopic d answers request event hevent _ hproduced
    exact ⟨hcode, payload, hpayload, by simp [entries, htopic]⟩
  · right
    simp only [MessageFor, hcode, decide_false, Bool.false_eq_true, if_false] at hmessage
    exact ⟨hcode, by simp [hmessage, entries]⟩

def Entry.request (entry : Entry) : Option ModerateObjectRequest :=
  match entry.origin with
  | .call request => some request
  | .outside => none
  | .consumer => none

/-- The message is the one `SendRequestAsync` makes of the request the service rebuilds. -/
def Rebuilt (d : Deployment) (entry : Entry) : Prop :=
  ∀ request, entry.request = some request →
    entry.key = some (StdLib.toString request.id) ∧ ∃ payload,
      d.pb.serializeRequest { id := request.id, text := request.text } = some payload ∧
      entry.payload = payload

/-- The calls answered OK are those librdkafka has a message of, in order. -/
structure CallsInv (d : Deployment) (s : State) : Prop where
  requests : s.queued.filterMap Entry.request =
    (s.calls.filter (fun call => call.2.code = .ok)).map Prod.fst
  rebuilt : ∀ entry ∈ s.queued, Rebuilt d entry

theorem CallsInv.extend (hs : CallsInv d s) (more : List Entry)
    (answered : List (ModerateObjectRequest × Status))
    (hqueued : s'.queued = s.queued ++ more) (hcalls : s'.calls = s.calls ++ answered)
    (hrequests : more.filterMap Entry.request =
      (answered.filter (fun call => call.2.code = .ok)).map Prod.fst)
    (hrebuilt : ∀ entry ∈ more, Rebuilt d entry) : CallsInv d s' := by
  constructor
  · rw [hqueued, hcalls, List.filterMap_append, List.filter_append, List.map_append, hs.requests,
      hrequests]
  · rw [hqueued]
    intro entry hentry
    rcases List.mem_append.1 hentry with hold | hnew
    · exact hs.rebuilt entry hold
    · exact hrebuilt entry hnew

/-- What the consumer hands over is of no call. -/
theorem request_of_mem_entries_consumer {config : KafkaConfig} {messages : List ProducedMessage}
    {entry : Entry} (h : entry ∈ entries config .consumer messages) : entry.request = none := by
  simp [Entry.request, origin_of_mem_entries h]

theorem callsInv_run (h : run (step d) init as = some s) : CallsInv d s := by
  refine run_history (J := fun _ s => CallsInv d s) ⟨rfl, by simp [init]⟩ ?_ h
  intro as s a s' _ hs hstep
  rcases step_cases hstep with ⟨key, payload, rfl⟩ |
    ⟨request, answers, status, response, hresult, rfl⟩ | ⟨_, _, rfl⟩ |
    ⟨b, _, _, hcalls, hqueued⟩
  · exact ⟨hs.requests, hs.rebuilt⟩
  · -- a call: one message when it is answered OK, and none otherwise
    refine hs.extend _ [(request, status)] rfl rfl ?_ ?_
    · rcases call_entries hresult with ⟨hcode, payload, _, hentries⟩ | ⟨hcode, hentries⟩
      · simp [hentries, hcode, Entry.request]
      · simp [hentries, hcode]
    · rcases call_entries hresult with ⟨hcode, payload, hpayload, hentries⟩ | ⟨hcode, hentries⟩
      · rw [hentries]
        intro entry hentry request' hrequest
        obtain rfl := List.mem_singleton.1 hentry
        cases hrequest
        exact ⟨rfl, payload, hpayload, rfl⟩
      · simp [hentries]
  · exact ⟨hs.requests, hs.rebuilt⟩
  · rcases hqueued with hsame | hmore
    · exact hs.extend [] [] (by simp [hsame]) (by simp [hcalls]) rfl (by simp)
    · refine hs.extend _ [] hmore (by simp [hcalls]) ?_ ?_
      · exact List.filterMap_eq_nil_iff.2 (fun entry hentry => request_of_mem_entries_consumer hentry)
      · intro entry hentry request hrequest
        rw [request_of_mem_entries_consumer hentry] at hrequest
        cases hrequest

/-! ## They are never moderated -/

theorem rebuilt_accepted (hpb : d.pb.RoundTrips) {entry : Entry} (hentry : Rebuilt d entry)
    {request : ModerateObjectRequest} (hrequest : entry.request = some request) (answers : Answers) :
    (consumeOnce d.pb d.icu d.consumer (entry.poll answers)).trace.filterMap action = [] := by
  rcases hentry request hrequest with ⟨_, payload, hpayload, hsame⟩
  have hparse : d.pb.parseRequest entry.message.payload =
      some { id := request.id, text := request.text } := by
    show d.pb.parseRequest entry.payload = _
    rw [hsame]
    exact hpb.parse_serialize _ _ hpayload
  -- the service has not set the type, and the default is `OBJECT_TYPE_UNSPECIFIED`
  have hrejected := processMessage_unspecified d.pb d.icu d.consumer answers hparse rfl
  simpa [consumeOnce, Entry.poll, Entry.message] using hrejected.observed

/-- librdkafka has taken, in order, one message for each call answered OK; a message of a call that has
arrived in the log is that of a call answered OK, under its id, and no delivery of one has ever asked
for a response or a record. -/
theorem calls_rejected (hpb : d.pb.RoundTrips) (h : run (step d) init as = some s) :
    s.queued.filterMap Entry.request =
      (s.calls.filter (fun call => call.2.code = .ok)).map Prod.fst ∧
    (∀ entry ∈ s.broker.log, ∀ request, entry.request = some request →
      entry.key = some (StdLib.toString request.id) ∧
        ∃ status, (request, status) ∈ s.calls ∧ status.code = .ok) ∧
    ∀ delivery ∈ s.broker.ended ++ s.broker.cut, ∀ entry request,
      s.broker.log[delivery.offset]? = some entry → entry.request = some request →
        delivery.emitted.filterMap action = [] := by
  have hcalls := callsInv_run h
  have hqueued : ∀ entry ∈ s.broker.log, ∀ request, entry.request = some request →
      entry ∈ s.queued := by
    intro entry hentry request hrequest
    rcases arrived_run h entry hentry with houtside | hmem
    · simp [Entry.request, houtside] at hrequest
    · exact hmem
  refine ⟨hcalls.requests, ?_, ?_⟩
  · intro entry hentry request hrequest
    have hmem := hqueued entry hentry request hrequest
    refine ⟨(hcalls.rebuilt entry hmem request hrequest).1, ?_⟩
    have hanswered : request ∈ s.queued.filterMap Entry.request :=
      List.mem_filterMap.2 ⟨entry, hmem, hrequest⟩
    rw [hcalls.requests] at hanswered
    rcases List.mem_map.1 hanswered with ⟨⟨request', status⟩, hcall, rfl⟩
    rcases List.mem_filter.1 hcall with ⟨hcall, hcode⟩
    exact ⟨status, hcall, of_decide_eq_true hcode⟩
  · intro delivery hdelivery entry request hentry hrequest
    have hmem := hqueued entry (List.mem_of_getElem? hentry) request hrequest
    rcases handles_of_mem (reachable_inv h) hdelivery with ⟨rest, entry', hentry', heffects⟩
    have hsame : entry' = entry := Option.some.inj (hentry'.symm.trans hentry)
    subst hsame
    have hnone := rebuilt_accepted hpb (hcalls.rebuilt entry' hmem) hrequest delivery.answer
    -- what it has emitted is a beginning of what its entry asks for, which is nothing
    have hsplit : (delivery.emitted ++ rest).filterMap action = [] := by
      rw [← heffects]
      exact hnone
    rw [List.filterMap_append] at hsplit
    exact (List.append_eq_nil_iff.1 hsplit).1

/-- The message of the call has arrived, and is being processed. -/
theorem calls_rejected_cleanRun :
    ∃ s, run (step sampleDeployment) init cleanRun = some s ∧
      s.queued.filterMap Entry.request = [sampleRequest] ∧
      (s.broker.log[1]?).bind Entry.request = some sampleRequest ∧
      ∀ delivery ∈ s.broker.ended ++ s.broker.cut, delivery.offset = 1 →
        delivery.emitted.filterMap action = [] := by
  have hrun : ∃ s, run (step sampleDeployment) init cleanRun = some s ∧
      s.queued.filterMap Entry.request = [sampleRequest] ∧
      (s.broker.log[1]?).bind Entry.request = some sampleRequest :=
    ⟨_, rfl, rfl, rfl⟩
  rcases hrun with ⟨s, h, hrequests, hsecond⟩
  rcases calls_rejected SampleProtobuf.sample_roundTrips h with ⟨_, _, hrejected⟩
  refine ⟨s, h, hrequests, hsecond, ?_⟩
  intro delivery hdelivery hone
  rcases Option.bind_eq_some_iff.1 hsecond with ⟨entry, hentry, hrequest⟩
  exact hrejected delivery hdelivery entry sampleRequest (hone ▸ hentry) hrequest

end Delivery
end ModerationService
