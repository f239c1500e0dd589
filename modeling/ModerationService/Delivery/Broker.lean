import ModerationService.Handler.EndToEnd
import ModerationService.Library.LogConsumer

/-!
# Broker — the service at work on the request topic

A partition of the request topic is a log.  Other producers append to it, and so do gRPC calls, but
not at once: `produce` hands a message to librdkafka and returns, and librdkafka delivers it later, or
not at all, or again after an answer that was lost, and not always in order.  `ConsumeLoop` reads the
log: `consume` hands out the next message and moves the position past it.  The constructor of
`KafkaConsumer` sets `enable.auto.commit`, so positions are committed while `ProcessMessage` is still
running, and `auto.offset.reset` to `earliest`, so that a process that starts again goes on from the
committed offset, or from the start of the log.

The consumer's part is an instance of `LogConsumer` (`run_broker`).
-/

namespace ModerationService
namespace Delivery

open Library Library.Machine Library.LogConsumer TextProcessor Kafka Kafka.KafkaConsumer Service
  Handler EndToEnd

/-! ## The objects -/

structure Deployment where
  pb : Protobuf
  icu : Icu
  config : KafkaConfig

namespace Deployment

variable (d : Deployment)

/-- `KafkaProducer::KafkaProducer`, when it does not throw. -/
def producer : KafkaProducer where
  producer_ := true
  topic_name_ := d.config.request_topic

/-- The client after `Initialize`. -/
def client : KafkaClient where
  config_ := d.config
  producer_ := some d.producer
  initialized_ := true

/-- The consumer `Initialize` builds, with the callback of `InitializeKafkaCallback`. -/
def consumer : KafkaConsumer where
  config_ := d.config
  callback_ := some resultCallback
  producer_ := some d.producer

def service : Fields where
  kafkaClient_ := d.client

end Deployment

/-! ## The log -/

/-- Who wrote a message of the log. -/
inductive Origin where
  | outside
  | call (request : ModerateObjectRequest)
  | consumer
  deriving DecidableEq

structure Entry where
  origin : Origin
  key : Option StdString
  payload : StdString
  deriving DecidableEq

/-- The message as `consume` returns it. -/
def Entry.message (entry : Entry) : RdKafkaMessage where
  err := errNoError
  key := entry.key
  payload := entry.payload

def Entry.poll (entry : Entry) (answers : Answers) : Poll :=
  ⟨some entry.message, answers⟩

/-- Of the messages produced, those of the request topic. -/
def entries (config : KafkaConfig) (origin : Origin) (messages : List ProducedMessage) :
    List Entry :=
  (messages.filter (fun message => message.topic = config.request_topic)).map
    (fun message => ⟨origin, some message.key, message.payload⟩)

/-- `ProcessMessage` as a consumer of the log. -/
def Deployment.effects (d : Deployment) (entry : Entry) (answers : Answers) : List Event :=
  (consumeOnce d.pb d.icu d.consumer (entry.poll answers)).trace

/-! ## The machine -/

structure State where
  broker : LogConsumer.State Entry Answers Event
  /-- the messages for the request topic that librdkafka has taken, in order -/
  queued : List Entry
  /-- the gRPC calls, with the status each was answered with -/
  calls : List (ModerateObjectRequest × Status)

def init : State where
  broker := LogConsumer.init
  queued := []
  calls := []

/-- What the consumer hands to librdkafka with its next event. -/
def State.producing (s : State) : List ProducedMessage :=
  match s.broker.inFlight with
  | some (_, event :: _) => (produced event).toList
  | _ => []

inductive Action where
  | outside (key : Option StdString) (payload : StdString)
  | call (request : ModerateObjectRequest) (answers : Answers)
  /-- a message that librdkafka has taken reaches the log; that may happen to it any number of times,
  and a restart does not keep it from happening -/
  | arrive (i : Nat)
  | consume (answers : Answers)
  /-- the next event of `ProcessMessage` -/
  | proceed
  | finish
  | commit (offset : Nat)
  | restart

def step (d : Deployment) (s : State) : Action → Option State
  | .outside key payload =>
      some { s with broker := { s.broker with
        log := s.broker.log ++ [⟨.outside, key, payload⟩] } }
  | .call request answers =>
      let p := moderateObject d.pb d.service answers request
      match p.result with
      | .ok (status, _) =>
          some { s with
            queued := s.queued ++ entries d.config (.call request) (messages p)
            calls := s.calls ++ [(request, status)] }
      | .error _ => none
  | .arrive i =>
      s.queued[i]?.map (fun entry =>
        { s with broker := { s.broker with log := s.broker.log ++ [entry] } })
  | .consume answers =>
      (LogConsumer.step d.effects s.broker (.deliver answers)).map
        (fun broker => { s with broker := broker })
  | .proceed =>
      (LogConsumer.step d.effects s.broker .emit).map (fun broker =>
        { s with
          broker := broker
          queued := s.queued ++ entries d.config .consumer s.producing })
  | .finish =>
      (LogConsumer.step d.effects s.broker .finish).map (fun broker => { s with broker := broker })
  | .commit offset =>
      (LogConsumer.step d.effects s.broker (.commit offset)).map
        (fun broker => { s with broker := broker })
  | .restart =>
      (LogConsumer.step d.effects s.broker .restart).map (fun broker => { s with broker := broker })

/-! ## What a step does -/

variable {d : Deployment} {s s' : State}

/-- A message comes from outside, a gRPC call is made, a message that librdkafka has taken arrives, or
the consumer takes a step and may hand messages to librdkafka. -/
theorem step_cases {a : Action} (h : step d s a = some s') :
    (∃ key payload, s' = { s with broker := { s.broker with
        log := s.broker.log ++ [⟨.outside, key, payload⟩] } }) ∨
    (∃ request answers status response,
      (moderateObject d.pb d.service answers request).result = .ok (status, response) ∧
      s' = { s with
        queued := s.queued ++ entries d.config (.call request)
          (messages (moderateObject d.pb d.service answers request))
        calls := s.calls ++ [(request, status)] }) ∨
    (∃ entry ∈ s.queued, s' = { s with broker := { s.broker with
        log := s.broker.log ++ [entry] } }) ∨
    (∃ b, (∀ entry, b ≠ .append entry) ∧
      LogConsumer.step d.effects s.broker b = some s'.broker ∧ s'.calls = s.calls ∧
      (s'.queued = s.queued ∨
        s'.queued = s.queued ++ entries d.config .consumer s.producing)) := by
  have hconsumer : ∀ b, (∀ entry, b ≠ LogConsumer.Action.append entry) →
      (LogConsumer.step d.effects s.broker b).map (fun broker => { s with broker := broker }) =
        some s' →
      ∃ b, (∀ entry, b ≠ .append entry) ∧
        LogConsumer.step d.effects s.broker b = some s'.broker ∧ s'.calls = s.calls ∧
        (s'.queued = s.queued ∨
          s'.queued = s.queued ++ entries d.config .consumer s.producing) := by
    intro b hb hmap
    rcases Option.map_eq_some_iff.1 hmap with ⟨broker, hbroker, rfl⟩
    exact ⟨b, hb, hbroker, rfl, Or.inl rfl⟩
  cases a with
  | outside key payload =>
      exact Or.inl ⟨key, payload, (Option.some.inj h).symm⟩
  | call request answers =>
      right
      left
      simp only [step] at h
      split at h
      · next status response hresult =>
          exact ⟨request, answers, status, response, hresult, (Option.some.inj h).symm⟩
      · cases h
  | arrive i =>
      rcases Option.map_eq_some_iff.1 h with ⟨entry, hentry, rfl⟩
      exact Or.inr (Or.inr (Or.inl ⟨entry, List.mem_of_getElem? hentry, rfl⟩))
  | consume answers => exact Or.inr (Or.inr (Or.inr (hconsumer (.deliver answers) (by simp) h)))
  | proceed =>
      rcases Option.map_eq_some_iff.1 h with ⟨broker, hbroker, rfl⟩
      exact Or.inr (Or.inr (Or.inr ⟨.emit, by simp, hbroker, rfl, Or.inr rfl⟩))
  | finish => exact Or.inr (Or.inr (Or.inr (hconsumer .finish (by simp) h)))
  | commit offset => exact Or.inr (Or.inr (Or.inr (hconsumer (.commit offset) (by simp) h)))
  | restart => exact Or.inr (Or.inr (Or.inr (hconsumer .restart (by simp) h)))

/-- What the consumer is about to hand to librdkafka, it does for the message it handles. -/
theorem producing_of_flight (hinv : LogConsumer.Inv d.effects s.broker) {message : ProducedMessage}
    (h : message ∈ s.producing) :
    ∃ entry answers, .produced message ∈ d.effects entry answers := by
  unfold State.producing at h
  split at h
  · next delivery event pending hflight =>
      rcases (hinv.inFlight delivery (event :: pending) hflight).2.2 with ⟨entry, _, heffects⟩
      have hevent : event = .produced message := by
        cases event <;> simp [produced] at h
        rw [h]
      refine ⟨entry, delivery.answer, ?_⟩
      rw [heffects, hevent]
      simp
  · cases h

/-! ## The consumer's part of a run -/

theorem step_broker {a : Action} (h : step d s a = some s') :
    ∃ bs, run (LogConsumer.step d.effects) s.broker bs = some s'.broker := by
  rcases step_cases h with ⟨key, payload, rfl⟩ | ⟨request, answers, status, response, _, rfl⟩ |
    ⟨entry, _, rfl⟩ | ⟨b, _, hb, _⟩
  · exact ⟨[.append ⟨.outside, key, payload⟩], rfl⟩
  · exact ⟨[], rfl⟩
  · exact ⟨[.append entry], rfl⟩
  · exact ⟨[b], by simp [run_cons, hb]⟩

theorem run_broker {as : List Action} (h : run (step d) s as = some s') :
    ∃ bs, run (LogConsumer.step d.effects) s.broker bs = some s'.broker := by
  induction as generalizing s with
  | nil =>
      have hsame : s = s' := by
        simpa using h
      exact ⟨[], by simp [hsame]⟩
  | cons a as ih =>
      rcases run_cons_eq_some.1 h with ⟨t, hfirst, hrest⟩
      rcases step_broker hfirst with ⟨bs, hbs⟩
      rcases ih hrest with ⟨cs, hcs⟩
      exact ⟨bs ++ cs, by simp [run_append, hbs, hcs]⟩

theorem reachable_broker {as : List Action} (h : run (step d) init as = some s) :
    ∃ bs, run (LogConsumer.step d.effects) LogConsumer.init bs = some s.broker :=
  run_broker h

theorem reachable_inv {as : List Action} (h : run (step d) init as = some s) :
    LogConsumer.Inv d.effects s.broker := by
  rcases reachable_broker h with ⟨bs, hbs⟩
  exact inv_run hbs

/-! ## Two runs -/

def sampleDeployment : Deployment where
  pb := SampleProtobuf.sampleProtobuf
  icu := SampleIcu.sampleIcu
  config := { request_topic := [0x71], result_topic := [0x72] }

/-- A flagged comment from another producer, without a key, and a call whose message arrives. -/
def sampleMessages : List Action :=
  [.outside none (SampleProtobuf.encodeRequest sampleRequest), .call sampleRequest sampleAnswers,
    .arrive 0]

/-- The process is killed between the commit and the record, and starts again. -/
def cutRun : List Action :=
  sampleMessages ++ [.consume sampleAnswers, .commit 1, .proceed, .restart, .consume sampleAnswers]

/-- The process is stopped between the two messages, and starts again. -/
def cleanRun : List Action :=
  sampleMessages ++ [.consume sampleAnswers, .proceed, .proceed, .proceed, .finish, .commit 1,
    .restart, .consume sampleAnswers, .proceed]

end Delivery
end ModerationService
