import Mathlib.Logic.Function.Basic
import ModerationService.Library.Machine

/-!
# Lifecycle — the Kafka client between one call and the next

`kafka/kafkaclient.cpp` and `kafka/kafkaclient.hpp`, as far as the life of objects and threads is
concerned: `KafkaClient::Initialize`, `StartConsumer`, `StopConsumer`, `Flush`, `SendRequestAsync`
and `Shutdown`, `KafkaConsumer::Start`, `Stop` and its destructor, and `ConsumeLoop`.

Two parties take turns: the thread that calls the client, one statement at a time (`advance`), and
the thread of a consumer, one step of its loop at a time (`loopStep`).  Producers and consumers are
objects with an identity, which exist until they are destroyed; nothing in the model keeps a loop
from running on after that.

A constructor of a producer or a consumer may fail; that of a `std::thread` is taken to succeed.  What
its failure leaves behind is `threadFails`.
-/

namespace ModerationService
namespace Kafka
namespace Lifecycle

abbrev ProducerId := Nat
abbrev ConsumerId := Nat

/-! ## States -/

/-- Where the thread of a consumer is in `ConsumeLoop`. -/
inductive LoopPc where
  /-- `while (running_.load())` -/
  | test
  /-- `consumer_->consume(...)` -/
  | consume
  /-- `ProcessMessage(message)` -/
  | process
  | returned
  deriving DecidableEq, Repr

/-- A `KafkaConsumer`. -/
structure ConsumerObject where
  /-- the raw pointer, null or not -/
  producer_ : Option ProducerId
  running_ : Bool
  /-- whether `consumer_thread_` is joinable -/
  consumer_thread_ : Bool
  deriving DecidableEq, Repr

/-- Who called `KafkaConsumer::Stop`. -/
inductive Caller where
  | stopConsumer
  | shutdown
  /-- the destructor, from `consumer_.reset()` in `Shutdown` -/
  | reset
  /-- the destructor, from the assignment to `consumer_` in `Initialize` -/
  | replace
  deriving DecidableEq, Repr

/-- The statement the calling thread executes next. -/
inductive Pc where
  | idle
  /-- `if (initialized_) { return; }` -/
  | initializeClient
  /-- `producer_ = std::make_unique<KafkaProducer>(...)` -/
  | createProducer
  /-- `consumer_ = std::make_unique<KafkaConsumer>(...)` -/
  | createConsumer
  /-- `initialized_ = true` -/
  | setInitialized
  /-- the guard of `StartConsumer` -/
  | startConsumer
  /-- `if (running_.load()) { return; }` in `Start` -/
  | start (id : ConsumerId)
  /-- `running_.store(true)` -/
  | storeTrue (id : ConsumerId)
  /-- `consumer_thread_ = std::thread(...)` -/
  | startThread (id : ConsumerId)
  /-- the guard of `StopConsumer` -/
  | stopConsumer (caller : Caller)
  /-- `if (!running_.load()) { return; }` in `Stop` -/
  | stop (id : ConsumerId) (caller : Caller)
  /-- `running_.store(false)` -/
  | storeFalse (id : ConsumerId) (caller : Caller)
  /-- `if (consumer_thread_.joinable()) { consumer_thread_.join(); }` -/
  | join (id : ConsumerId) (caller : Caller)
  /-- the rest of the destructor -/
  | destroy (id : ConsumerId) (caller : Caller)
  /-- `if (producer_) { producer_->Flush(...); }` in `Shutdown` -/
  | flushProducer
  /-- `consumer_.reset()` -/
  | resetConsumer
  /-- `producer_.reset()` -/
  | resetProducer
  /-- `initialized_ = false` -/
  | clearInitialized
  /-- the guard of `Flush` or `SendRequestAsync` -/
  | useProducer
  /-- the call of the producer in `Flush` or `SendRequestAsync` -/
  | callProducer
  deriving DecidableEq, Repr

structure State where
  initialized_ : Bool
  producer_ : Option ProducerId
  consumer_ : Option ConsumerId
  /-- the producers that exist -/
  producers : ProducerId → Bool
  /-- the consumers that exist -/
  consumers : ConsumerId → Option ConsumerObject
  /-- the threads of consumers that have been started and not been joined -/
  threads : ConsumerId → Option LoopPc
  /-- no identity from here on has been used -/
  fresh : Nat
  pc : Pc

/-- A client as its constructor leaves it. -/
def init : State where
  initialized_ := false
  producer_ := none
  consumer_ := none
  producers := fun _ => false
  consumers := fun _ => none
  threads := fun _ => none
  fresh := 0
  pc := .idle

/-! ## The calling thread -/

inductive Call where
  | initializeClient
  | startConsumer
  | stopConsumer
  | flush
  | sendRequestAsync
  | shutdown
  deriving DecidableEq, Repr

/-- The first statement of a call. -/
def entry : Call → Pc
  | .initializeClient => .initializeClient
  | .startConsumer => .startConsumer
  | .stopConsumer => .stopConsumer .stopConsumer
  | .flush => .useProducer
  | .sendRequestAsync => .useProducer
  | .shutdown => .stopConsumer .shutdown

/-- What follows a return from `KafkaConsumer::Stop`. -/
def afterStop (id : ConsumerId) : Caller → Pc
  | .stopConsumer => .idle
  | .shutdown => .flushProducer
  | .reset => .destroy id .reset
  | .replace => .destroy id .replace

/-- What follows a return from `KafkaClient::StopConsumer` at its guard. -/
def afterGuard : Caller → Pc
  | .shutdown => .flushProducer
  | _ => .idle

/-- What follows the destructor of a consumer. -/
def afterDestroy : Caller → Pc
  | .replace => .setInitialized
  | _ => .resetProducer

def State.setConsumer (s : State) (id : ConsumerId) (c : ConsumerObject) : State :=
  { s with consumers := Function.update s.consumers id (some c) }

/-- The owned producer exists no more. -/
def State.dropProducer (s : State) : ProducerId → Bool :=
  match s.producer_ with
  | some p => Function.update s.producers p false
  | none => s.producers

/-- One statement of the calling thread; `ok` says whether a constructor succeeds.  A constructor
that fails throws, and `Initialize` passes the exception on. -/
def advance (s : State) (ok : Bool) : Option State :=
  match s.pc with
  | .idle => none
  | .initializeClient => some { s with pc := if s.initialized_ then .idle else .createProducer }
  | .createProducer =>
      if ok then
        some { s with
          producer_ := some s.fresh
          producers := Function.update s.dropProducer s.fresh true
          fresh := s.fresh + 1
          pc := .createConsumer }
      else
        some { s with pc := .idle }
  | .createConsumer =>
      if ok then
        let created := s.setConsumer s.fresh
          { producer_ := s.producer_, running_ := false, consumer_thread_ := false }
        some { created with
          consumer_ := some s.fresh
          fresh := s.fresh + 1
          -- the assignment destroys the consumer it replaces
          pc := match s.consumer_ with
            | some old => .stop old .replace
            | none => .setInitialized }
      else
        some { s with pc := .idle }
  | .setInitialized => some { s with initialized_ := true, pc := .idle }
  | .startConsumer =>
      match s.initialized_, s.consumer_ with
      | true, some id => some { s with pc := .start id }
      | _, _ => some { s with pc := .idle }
  | .start id =>
      (s.consumers id).map fun c => { s with pc := if c.running_ then .idle else .storeTrue id }
  | .storeTrue id =>
      (s.consumers id).map fun c =>
        { s.setConsumer id { c with running_ := true } with pc := .startThread id }
  | .startThread id =>
      -- the thread is created whatever `ok` says
      (s.consumers id).map fun c =>
        { s.setConsumer id { c with consumer_thread_ := true } with
          threads := Function.update s.threads id (some .test)
          pc := .idle }
  | .stopConsumer caller =>
      match s.initialized_, s.consumer_ with
      | true, some id => some { s with pc := .stop id caller }
      | _, _ => some { s with pc := afterGuard caller }
  | .stop id caller =>
      (s.consumers id).map fun c =>
        { s with pc := if c.running_ then .storeFalse id caller else afterStop id caller }
  | .storeFalse id caller =>
      (s.consumers id).map fun c =>
        { s.setConsumer id { c with running_ := false } with pc := .join id caller }
  | .join id caller =>
      (s.consumers id).bind fun c =>
        if c.consumer_thread_ then
          -- `join` waits until the loop has returned
          if s.threads id = some .returned then
            some { s.setConsumer id { c with consumer_thread_ := false } with
              threads := Function.update s.threads id none
              pc := afterStop id caller }
          else
            none
        else
          some { s with pc := afterStop id caller }
  | .destroy id caller =>
      some { s with
        consumers := Function.update s.consumers id none
        pc := afterDestroy caller }
  | .flushProducer => some { s with pc := .resetConsumer }
  | .resetConsumer =>
      match s.consumer_ with
      | some id => some { s with consumer_ := none, pc := .stop id .reset }
      | none => some { s with pc := .resetProducer }
  | .resetProducer =>
      some { s with producer_ := none, producers := s.dropProducer, pc := .clearInitialized }
  | .clearInitialized => some { s with initialized_ := false, pc := .idle }
  | .useProducer =>
      if s.initialized_ && s.producer_.isSome then
        some { s with pc := .callProducer }
      else
        some { s with pc := .idle }
  | .callProducer => some { s with pc := .idle }

/-! ## The consumer thread -/

/-- One step of the loop of a consumer.  `answer` is what the outside answers: whether `consume`
delivers a message and, should the consumer be gone, what is read in place of `running_`. -/
def loopStep (s : State) (id : ConsumerId) (answer : Bool) : Option State :=
  let goTo (loopPc : LoopPc) : Option State :=
    some { s with threads := Function.update s.threads id (some loopPc) }
  match s.threads id with
  | some .test =>
      let running := match s.consumers id with
        | some c => c.running_
        | none => answer
      goTo (if running then .consume else .returned)
  | some .consume => goTo (if answer then .process else .test)
  | some .process => goTo .test
  | some .returned => none
  | none => none

/-! ## Runs -/

inductive Action where
  /-- the calling thread makes a call -/
  | call (c : Call)
  /-- the calling thread executes a statement of it -/
  | advance (ok : Bool)
  /-- the thread of a consumer makes a step -/
  | loop (id : ConsumerId) (answer : Bool)
  deriving DecidableEq, Repr

/-- Calls are made one after another. -/
def step (s : State) : Action → Option State
  | .call c => if s.pc = .idle then some { s with pc := entry c } else none
  | .advance ok => advance s ok
  | .loop id answer => loopStep s id answer

end Lifecycle
end Kafka
end ModerationService
