import ModerationService.Kafka.Lifecycle

/-!
# LifecycleSafety — what holds in every state of a Kafka client

`Shape` lists the states a client can be in, whatever the order of the calls: without a consumer, or
with one consumer whose flag, thread and producer agree with the statement being executed.  Every
step goes from a listed state to a listed one, and the safety of the life cycle is read off the list.
-/

namespace ModerationService
namespace Kafka
namespace Lifecycle

open Library Machine

/-! ## The states of a client -/

/-- The producers that exist when `producer` is the one the client owns. -/
def owned (producer : Option ProducerId) : ProducerId → Bool :=
  fun p => producer == some p

@[simp] theorem owned_none : owned none = fun _ => false := rfl

@[simp] theorem owned_some_self (p : ProducerId) : owned (some p) p = true := by
  simp [owned]

/-- The client has no consumer. -/
abbrev absent (initialized : Bool) (producer : Option ProducerId) (fresh : Nat) (pc : Pc) : State where
  initialized_ := initialized
  producer_ := producer
  consumer_ := none
  producers := owned producer
  consumers := fun _ => none
  threads := fun _ => none
  fresh := fresh
  pc := pc

/-- There is the one consumer `id`, with the producer `p` and the thread `thread`. -/
abbrev present (initialized : Bool) (owner : Option ConsumerId) (p : ProducerId) (id : ConsumerId)
    (running joinable : Bool) (thread : Option LoopPc) (fresh : Nat) (pc : Pc) : State where
  initialized_ := initialized
  producer_ := some p
  consumer_ := owner
  producers := owned (some p)
  consumers := Function.update (fun _ => none) id
    (some { producer_ := some p, running_ := running, consumer_thread_ := joinable })
  threads := Function.update (fun _ => none) id thread
  fresh := fresh
  pc := pc

/-- The consumer has been stopped, or its loop is running. -/
inductive Worker : Bool → Bool → Option LoopPc → Prop where
  | stopped : Worker false false none
  | running (loopPc : LoopPc) (h : loopPc ≠ .returned) : Worker true true (some loopPc)

/-- `Stop` was called by `StopConsumer` or by `Shutdown`, not by the destructor. -/
def Caller.direct : Caller → Prop
  | .stopConsumer | .shutdown => True
  | .reset | .replace => False

theorem Caller.direct_cases {caller : Caller} (h : caller.direct) :
    caller = .stopConsumer ∨ caller = .shutdown := by
  cases caller with
  | stopConsumer => exact Or.inl rfl
  | shutdown => exact Or.inr rfl
  | reset => exact h.elim
  | replace => exact h.elim

/-- Statements executed while the client has no consumer and `initialized_` is not set. -/
inductive AbsentPc : Pc → Prop where
  | idle : AbsentPc .idle
  | initializeClient : AbsentPc .initializeClient
  | createProducer : AbsentPc .createProducer
  | startConsumer : AbsentPc .startConsumer
  | stopConsumer (caller : Caller) (h : caller.direct) : AbsentPc (.stopConsumer caller)
  | flushProducer : AbsentPc .flushProducer
  | resetConsumer : AbsentPc .resetConsumer
  | useProducer : AbsentPc .useProducer

/-- Statements executed while the client has a consumer that is stopped or running. -/
inductive SettledPc (id : ConsumerId) : Pc → Prop where
  | idle : SettledPc id .idle
  | initializeClient : SettledPc id .initializeClient
  | startConsumer : SettledPc id .startConsumer
  | start : SettledPc id (.start id)
  | stopConsumer (caller : Caller) (h : caller.direct) : SettledPc id (.stopConsumer caller)
  | stop (caller : Caller) (h : caller.direct) : SettledPc id (.stop id caller)
  | useProducer : SettledPc id .useProducer
  | callProducer : SettledPc id .callProducer

inductive Shape : State → Prop where
  | absent {producer fresh pc} (h : AbsentPc pc) : Shape (absent false producer fresh pc)
  | createConsumer {p fresh} : Shape (absent false (some p) fresh .createConsumer)
  | resetProducer {initialized producer fresh} :
      Shape (absent initialized producer fresh .resetProducer)
  | clearInitialized {initialized producer fresh} :
      Shape (absent initialized producer fresh .clearInitialized)
  | setInitialized {p id fresh} :
      Shape (present false (some id) p id false false none fresh .setInitialized)
  | settled {p id running joinable thread fresh pc} (hpc : SettledPc id pc)
      (hworker : Worker running joinable thread) :
      Shape (present true (some id) p id running joinable thread fresh pc)
  | storeTrue {p id fresh} :
      Shape (present true (some id) p id false false none fresh (.storeTrue id))
  | startThread {p id fresh} :
      Shape (present true (some id) p id true false none fresh (.startThread id))
  | storeFalse {p id loopPc fresh caller} (h : caller.direct) (hloop : loopPc ≠ .returned) :
      Shape (present true (some id) p id true true (some loopPc) fresh (.storeFalse id caller))
  | join {p id loopPc fresh caller} (h : caller.direct) :
      Shape (present true (some id) p id false true (some loopPc) fresh (.join id caller))
  | flushProducer {p id fresh} :
      Shape (present true (some id) p id false false none fresh .flushProducer)
  | resetConsumer {p id fresh} :
      Shape (present true (some id) p id false false none fresh .resetConsumer)
  | stop {p id fresh} : Shape (present true none p id false false none fresh (.stop id .reset))
  | destroy {p id fresh} : Shape (present true none p id false false none fresh (.destroy id .reset))

theorem shape_init : Shape init := by
  have h : init = absent false none 0 .idle := rfl
  exact h ▸ Shape.absent .idle

@[simp] theorem dropProducer_owned {s : State} (h : s.producers = owned s.producer_) :
    s.dropProducer = fun _ => false := by
  funext q
  cases hp : s.producer_ with
  | none =>
    simp [State.dropProducer, hp, h, owned]
  | some p =>
    by_cases hq : q = p
    · simp [State.dropProducer, hp, h, hq]
    · simp [State.dropProducer, hp, h, owned, hq, Ne.symm hq]

theorem update_owned (p : ProducerId) : Function.update (fun _ => false) p true = owned (some p) := by
  funext q
  by_cases hq : q = p
  · simp [owned, hq]
  · simp [owned, hq, Ne.symm hq]

/-! ## One step -/

theorem step_call {s s' : State} {c : Call} (h : step s (.call c) = some s') :
    s.pc = .idle ∧ s' = { s with pc := entry c } := by
  have hidle : s.pc = .idle ∧ { s with pc := entry c } = s' := by
    simpa [step] using h
  exact ⟨hidle.1, hidle.2.symm⟩

theorem shape_call {s s' : State} {c : Call} (hs : Shape s) (h : step s (.call c) = some s') :
    Shape s' := by
  rcases step_call h with ⟨hpc, rfl⟩
  cases hs with
  | absent habsent =>
    cases c with
    | initializeClient => exact .absent .initializeClient
    | startConsumer => exact .absent .startConsumer
    | stopConsumer => exact .absent (.stopConsumer _ trivial)
    | flush => exact .absent .useProducer
    | sendRequestAsync => exact .absent .useProducer
    | shutdown => exact .absent (.stopConsumer _ trivial)
  | settled hsettled hworker =>
    cases c with
    | initializeClient => exact .settled .initializeClient hworker
    | startConsumer => exact .settled .startConsumer hworker
    | stopConsumer => exact .settled (.stopConsumer _ trivial) hworker
    | flush => exact .settled .useProducer hworker
    | sendRequestAsync => exact .settled .useProducer hworker
    | shutdown => exact .settled (.stopConsumer _ trivial) hworker
  | _ => simp at hpc

/-- `Stop` returns at once when the flag is not set. -/
theorem advance_stop_stopped {owner : Option ConsumerId} {p : ProducerId} {id : ConsumerId}
    {fresh : Nat} {caller : Caller} {ok : Bool} {s' : State}
    (h : advance (present true owner p id false false none fresh (.stop id caller)) ok = some s') :
    s' = present true owner p id false false none fresh (afterStop id caller) := by
  have hs' : present true owner p id false false none fresh (afterStop id caller) = s' := by
    simpa [present, advance] using h
  exact hs'.symm

/-- The guard of `StopConsumer` without a consumer. -/
theorem advance_stopConsumer_absent {producer : Option ProducerId} {fresh : Nat} {caller : Caller}
    {ok : Bool} {s' : State}
    (h : advance (absent false producer fresh (.stopConsumer caller)) ok = some s') :
    s' = absent false producer fresh (afterGuard caller) := by
  have hs' : absent false producer fresh (afterGuard caller) = s' := by
    simpa [absent, advance] using h
  exact hs'.symm

/-- The end of `join`: the loop has returned, and the consumer is stopped. -/
theorem advance_join {p : ProducerId} {id : ConsumerId} {loopPc : LoopPc} {fresh : Nat}
    {caller : Caller} {ok : Bool} {s' : State}
    (h : advance (present true (some id) p id false true (some loopPc) fresh (.join id caller)) ok
      = some s') :
    s' = present true (some id) p id false false none fresh (afterStop id caller) := by
  have hreturned : loopPc = .returned ∧
      present true (some id) p id false false none fresh (afterStop id caller) = s' := by
    simpa [present, advance, State.setConsumer] using h
  exact hreturned.2.symm

/-- A statement executed while the client has no consumer and `initialized_` is not set. -/
theorem shape_advance_absent {producer : Option ProducerId} {fresh : Nat} {pc : Pc} {ok : Bool}
    {s' : State} (hpc : AbsentPc pc) (h : advance (absent false producer fresh pc) ok = some s') :
    Shape s' := by
  cases hpc with
  | idle =>
    simp [advance] at h
  | initializeClient =>
    have hs' : absent false producer fresh .createProducer = s' := by
      simpa [absent, advance] using h
    exact hs' ▸ .absent .createProducer
  | createProducer =>
    cases ok with
    | false =>
      have hs' : absent false producer fresh .idle = s' := by
        simpa [absent, advance] using h
      exact hs' ▸ .absent .idle
    | true =>
      -- a producer left over from a failed `Initialize` is destroyed
      have hs' : absent false (some fresh) (fresh + 1) .createConsumer = s' := by
        simpa [absent, advance, update_owned] using h
      exact hs' ▸ .createConsumer
  | startConsumer =>
    have hs' : absent false producer fresh .idle = s' := by
      simpa [absent, advance] using h
    exact hs' ▸ .absent .idle
  | stopConsumer caller hdirect =>
    -- the guard skips `Stop`, and `Shutdown` goes on behind it
    have hs' := advance_stopConsumer_absent h
    subst hs'
    rcases Caller.direct_cases hdirect with rfl | rfl
    · exact .absent .idle
    · exact .absent .flushProducer
  | flushProducer =>
    have hs' : absent false producer fresh .resetConsumer = s' := by
      simpa [absent, advance] using h
    exact hs' ▸ .absent .resetConsumer
  | resetConsumer =>
    have hs' : absent false producer fresh .resetProducer = s' := by
      simpa [absent, advance] using h
    exact hs' ▸ .resetProducer
  | useProducer =>
    have hs' : absent false producer fresh .idle = s' := by
      simpa [absent, advance] using h
    exact hs' ▸ .absent .idle

/-- A statement executed while the consumer is stopped or running. -/
theorem shape_advance_settled {p : ProducerId} {id : ConsumerId} {running joinable : Bool}
    {thread : Option LoopPc} {fresh : Nat} {pc : Pc} {ok : Bool} {s' : State}
    (hpc : SettledPc id pc) (hworker : Worker running joinable thread)
    (h : advance (present true (some id) p id running joinable thread fresh pc) ok = some s') :
    Shape s' := by
  have hidle : Shape (present true (some id) p id running joinable thread fresh .idle) :=
    .settled .idle hworker
  cases hpc with
  | idle =>
    simp [advance] at h
  | initializeClient =>
    -- a client that is initialized returns at once
    have hs' : present true (some id) p id running joinable thread fresh .idle = s' := by
      simpa [present, advance] using h
    exact hs' ▸ hidle
  | startConsumer =>
    have hs' : present true (some id) p id running joinable thread fresh (.start id) = s' := by
      simpa [present, advance] using h
    exact hs' ▸ .settled .start hworker
  | start =>
    cases hworker with
    | stopped =>
      have hs' : present true (some id) p id false false none fresh (.storeTrue id) = s' := by
        simpa [present, advance] using h
      exact hs' ▸ .storeTrue
    | running loopPc hloop =>
      -- `Start` returns at once, and no thread is overwritten
      have hs' : present true (some id) p id true true (some loopPc) fresh .idle = s' := by
        simpa [present, advance] using h
      exact hs' ▸ hidle
  | stopConsumer caller hdirect =>
    have hs' : present true (some id) p id running joinable thread fresh (.stop id caller) = s' := by
      simpa [present, advance] using h
    exact hs' ▸ .settled (.stop caller hdirect) hworker
  | stop caller hdirect =>
    cases hworker with
    | stopped =>
      have hs' := advance_stop_stopped h
      subst hs'
      rcases Caller.direct_cases hdirect with rfl | rfl
      · exact hidle
      · exact .flushProducer
    | running loopPc hloop =>
      have hs' : present true (some id) p id true true (some loopPc) fresh (.storeFalse id caller)
          = s' := by
        simpa [present, advance] using h
      exact hs' ▸ .storeFalse hdirect hloop
  | useProducer =>
    have hs' : present true (some id) p id running joinable thread fresh .callProducer = s' := by
      simpa [present, advance] using h
    exact hs' ▸ .settled .callProducer hworker
  | callProducer =>
    have hs' : present true (some id) p id running joinable thread fresh .idle = s' := by
      simpa [present, advance] using h
    exact hs' ▸ hidle

theorem shape_advance {s s' : State} {ok : Bool} (hs : Shape s) (h : advance s ok = some s') :
    Shape s' := by
  cases hs with
  | absent hpc =>
    exact shape_advance_absent hpc h
  | settled hpc hworker =>
    exact shape_advance_settled hpc hworker h
  | @createConsumer p fresh =>
    cases ok with
    | false =>
      -- the producer stays behind without a consumer
      have hs' : absent false (some p) fresh .idle = s' := by
        simpa [absent, advance] using h
      exact hs' ▸ .absent .idle
    | true =>
      have hs' : present false (some fresh) p fresh false false none (fresh + 1) .setInitialized
          = s' := by
        simpa [present, advance, State.setConsumer] using h
      exact hs' ▸ .setInitialized
  | @resetProducer initialized producer fresh =>
    have hs' : absent initialized none fresh .clearInitialized = s' := by
      simpa [absent, advance] using h
    exact hs' ▸ .clearInitialized
  | @clearInitialized initialized producer fresh =>
    have hs' : absent false producer fresh .idle = s' := by
      simpa [absent, advance] using h
    exact hs' ▸ .absent .idle
  | @setInitialized p id fresh =>
    have hs' : present true (some id) p id false false none fresh .idle = s' := by
      simpa [present, advance] using h
    exact hs' ▸ .settled .idle .stopped
  | @storeTrue p id fresh =>
    have hs' : present true (some id) p id true false none fresh (.startThread id) = s' := by
      simpa [present, advance, State.setConsumer] using h
    exact hs' ▸ .startThread
  | @startThread p id fresh =>
    have hs' : present true (some id) p id true true (some .test) fresh .idle = s' := by
      simpa [present, advance, State.setConsumer] using h
    exact hs' ▸ .settled .idle (.running .test (by simp))
  | @storeFalse p id loopPc fresh caller hdirect hloop =>
    have hs' : present true (some id) p id false true (some loopPc) fresh (.join id caller) = s' := by
      simpa [present, advance, State.setConsumer] using h
    exact hs' ▸ .join hdirect
  | @join p id loopPc fresh caller hdirect =>
    have hs' := advance_join h
    subst hs'
    rcases Caller.direct_cases hdirect with rfl | rfl
    · exact .settled .idle .stopped
    · exact .flushProducer
  | @flushProducer p id fresh =>
    have hs' : present true (some id) p id false false none fresh .resetConsumer = s' := by
      simpa [present, advance] using h
    exact hs' ▸ .resetConsumer
  | @resetConsumer p id fresh =>
    have hs' : present true none p id false false none fresh (.stop id .reset) = s' := by
      simpa [present, advance] using h
    exact hs' ▸ .stop
  | @stop p id fresh =>
    -- the consumer has been stopped before, so its destructor has nothing to join
    have hs' := advance_stop_stopped h
    exact hs' ▸ .destroy
  | @destroy p id fresh =>
    have hs' : absent true (some p) fresh .resetProducer = s' := by
      simpa [absent, advance, afterDestroy] using h
    exact hs' ▸ .resetProducer

/-- A step of a loop that runs: the thread stays in the loop as long as the flag is set. -/
theorem loopStep_present {initialized : Bool} {owner : Option ConsumerId} {p : ProducerId}
    {id : ConsumerId} {running joinable : Bool} {loopPc : LoopPc} {fresh : Nat} {pc : Pc}
    {i : ConsumerId} {answer : Bool} {s' : State}
    (h : loopStep (present initialized owner p id running joinable (some loopPc) fresh pc) i answer
      = some s') :
    i = id ∧ ∃ next, (running = true → next ≠ .returned) ∧
      s' = present initialized owner p id running joinable (some next) fresh pc := by
  by_cases hi : i = id
  · subst hi
    refine ⟨rfl, ?_⟩
    cases loopPc with
    | test =>
      cases running with
      | false => exact ⟨.returned, by simp, by simpa [present, loopStep] using h.symm⟩
      | true => exact ⟨.consume, by simp, by simpa [present, loopStep] using h.symm⟩
    | consume =>
      cases answer with
      | false => exact ⟨.test, by simp, by simpa [present, loopStep] using h.symm⟩
      | true => exact ⟨.process, by simp, by simpa [present, loopStep] using h.symm⟩
    | process => exact ⟨.test, by simp, by simpa [present, loopStep] using h.symm⟩
    | returned => simp [loopStep] at h
  · -- no other consumer has a thread
    simp [loopStep, Function.update_of_ne hi] at h

theorem loopStep_pc {s s' : State} {i : ConsumerId} {answer : Bool}
    (h : loopStep s i answer = some s') : s'.pc = s.pc := by
  unfold loopStep at h
  split at h <;> grind

/-- A loop step finds a thread to run. -/
theorem loopStep_thread {s s' : State} {i : ConsumerId} {answer : Bool}
    (h : loopStep s i answer = some s') : s.threads i ≠ none := by
  intro hnone
  simp [loopStep, hnone] at h

theorem present_no_thread {initialized : Bool} {owner : Option ConsumerId} {p : ProducerId}
    {id : ConsumerId} {running joinable : Bool} {fresh : Nat} {pc : Pc} (i : ConsumerId) :
    (present initialized owner p id running joinable none fresh pc).threads i = none := by
  simp

theorem shape_loop {s s' : State} {i : ConsumerId} {answer : Bool} (hs : Shape s)
    (h : loopStep s i answer = some s') : Shape s' := by
  have hthread : s.threads i ≠ none := loopStep_thread h
  cases hs with
  | settled hpc hworker =>
    cases hworker with
    | stopped =>
      -- no thread, so no step
      exact (hthread (present_no_thread i)).elim
    | running loopPc hloop =>
      rcases loopStep_present h with ⟨_, next, hnext, rfl⟩
      exact .settled hpc (.running next (hnext rfl))
  | storeFalse hdirect hloop =>
    rcases loopStep_present h with ⟨_, next, hnext, rfl⟩
    exact .storeFalse hdirect (hnext rfl)
  | join hdirect =>
    rcases loopStep_present h with ⟨_, next, _, rfl⟩
    exact .join hdirect
  | _ => simp at hthread

theorem shape_step (s : State) (a : Action) (s' : State) (hs : Shape s) (h : step s a = some s') :
    Shape s' := by
  cases a with
  | call c => exact shape_call hs h
  | advance ok => exact shape_advance hs h
  | loop id answer => exact shape_loop hs h

theorem shape_run {as : List Action} {s s' : State} (hs : Shape s) (h : run step s as = some s') :
    Shape s' :=
  run_preserves (fun s a s' (_ : True) => shape_step s a s') hs (fun _ _ => trivial) h

/-! ## Safety -/

/-- The statement belongs to `Initialize`, or to `Shutdown` after it has stopped the consumer. -/
def Pc.transitional : Pc → Bool
  | .initializeClient | .createProducer | .createConsumer | .setInitialized => true
  | .flushProducer | .resetConsumer | .resetProducer | .clearInitialized => true
  | .stopConsumer caller => decide (caller = .shutdown)
  | .stop _ caller | .storeFalse _ caller | .join _ caller | .destroy _ caller =>
      decide (caller ≠ .stopConsumer)
  | _ => false

/-- The thread has been started, and its loop has not returned. -/
def State.live (s : State) (id : ConsumerId) : Prop :=
  ∃ loopPc, s.threads id = some loopPc ∧ loopPc ≠ .returned

structure Safe (s : State) : Prop where
  /-- outside `Initialize` and `Shutdown` there is a consumer exactly when `initialized_` is set -/
  initialized : s.pc.transitional = false →
    (s.initialized_ = true ↔ ∃ id, s.consumer_ = some id ∧ s.consumers id ≠ none)
  /-- and the client owns every consumer that exists -/
  owner : s.pc.transitional = false → ∀ id, s.consumers id ≠ none → s.consumer_ = some id
  /-- a consumer that exists points to the producer the client owns, and this one exists -/
  producer : ∀ id c, s.consumers id = some c →
    ∃ p, c.producer_ = some p ∧ s.producer_ = some p ∧ s.producers p = true
  /-- `Start` does not overwrite a thread -/
  start : ∀ id, s.pc = .startThread id →
    s.threads id = none ∧ ∃ c, s.consumers id = some c ∧ c.consumer_thread_ = false
  /-- between calls the loop of a consumer is live exactly when its flag is set -/
  live : s.pc = .idle → ∀ id c, s.consumers id = some c → (c.running_ = true ↔ s.live id)
  /-- a loop that makes a step has its consumer and the producer of this -/
  loop : ∀ id answer s', step s (.loop id answer) = some s' →
    ∃ c p, s.consumers id = some c ∧ c.producer_ = some p ∧ s.producers p = true

theorem safe_absent {initialized : Bool} {producer : Option ProducerId} {fresh : Nat} {pc : Pc}
    (h : pc.transitional = false → initialized = false) (hstart : ∀ id, pc ≠ .startThread id) :
    Safe (absent initialized producer fresh pc) where
  initialized := by
    intro hpc
    simp [h hpc]
  owner := by
    simp
  producer := by
    simp
  start := by
    intro id hpc
    exact (hstart id hpc).elim
  live := by
    simp
  loop := by
    intro id answer s' hloop
    simp [step, loopStep] at hloop

theorem present_consumers {initialized : Bool} {owner : Option ConsumerId} {p : ProducerId}
    {id : ConsumerId} {running joinable : Bool} {thread : Option LoopPc} {fresh : Nat} {pc : Pc}
    {i : ConsumerId} {c : ConsumerObject}
    (h : (present initialized owner p id running joinable thread fresh pc).consumers i = some c) :
    i = id ∧ c = { producer_ := some p, running_ := running, consumer_thread_ := joinable } := by
  by_cases hi : i = id
  · subst hi
    exact ⟨rfl, by simpa [present] using h.symm⟩
  · simp [Function.update_of_ne hi] at h

theorem safe_present {initialized : Bool} {owner : Option ConsumerId} {p : ProducerId}
    {id : ConsumerId} {running joinable : Bool} {thread : Option LoopPc} {fresh : Nat} {pc : Pc}
    (h : pc.transitional = false → initialized = true ∧ owner = some id)
    (hstart : ∀ i, pc = .startThread i → i = id ∧ joinable = false ∧ thread = none)
    (hlive : pc = .idle → Worker running joinable thread) :
    Safe (present initialized owner p id running joinable thread fresh pc) where
  initialized := by
    intro hpc
    simp [h hpc]
  owner := by
    intro hpc i hi
    rcases Option.ne_none_iff_exists'.1 hi with ⟨c, hc⟩
    rcases present_consumers hc with ⟨rfl, _⟩
    exact (h hpc).2
  producer := by
    intro i c hc
    rcases present_consumers hc with ⟨_, rfl⟩
    exact ⟨p, rfl, rfl, by simp⟩
  start := by
    intro i hpc
    rcases hstart i hpc with ⟨rfl, rfl, rfl⟩
    exact ⟨by simp, { producer_ := some p, running_ := running, consumer_thread_ := false },
      by simp, rfl⟩
  live := by
    intro hpc i c hc
    rcases present_consumers hc with ⟨rfl, rfl⟩
    cases hlive hpc with
    | stopped => simp [State.live]
    | running loopPc hloop => simp [State.live, hloop]
  loop := by
    -- only the consumer that exists has a thread
    intro i answer s' hloop
    have hloop' : loopStep _ i answer = some s' := hloop
    cases thread with
    | none => exact (loopStep_thread hloop' (present_no_thread i)).elim
    | some loopPc =>
      rcases loopStep_present hloop' with ⟨rfl, _⟩
      exact ⟨{ producer_ := some p, running_ := running, consumer_thread_ := joinable }, p,
        by simp, rfl, by simp⟩

theorem Shape.safe {s : State} (hs : Shape s) : Safe s := by
  cases hs with
  | absent hpc =>
    refine safe_absent (fun _ => rfl) ?_
    rintro id rfl
    cases hpc
  | createConsumer => exact safe_absent (by simp [Pc.transitional]) (by simp)
  | resetProducer => exact safe_absent (by simp [Pc.transitional]) (by simp)
  | clearInitialized => exact safe_absent (by simp [Pc.transitional]) (by simp)
  | settled hpc hworker =>
    refine safe_present (fun _ => ⟨rfl, rfl⟩) ?_ (fun _ => hworker)
    rintro i rfl
    cases hpc
  | startThread => exact safe_present (by simp) (by simp) (by simp)
  | _ => exact safe_present (by simp [Pc.transitional]) (by simp) (by simp)

/-! ## After a stop -/

/-- The statement belongs to a call that stops the consumer. -/
def Pc.stopping : Pc → Bool
  | .stopConsumer caller | .stop _ caller | .storeFalse _ caller | .join _ caller
  | .destroy _ caller => decide (caller ≠ .replace)
  | .flushProducer | .resetConsumer | .resetProducer | .clearInitialized => true
  | _ => false

/-- The statement starts the consumer, or may still come to start it. -/
def Pc.starting : Pc → Bool
  | .startConsumer | .start _ | .storeTrue _ | .startThread _ => true
  | _ => false

/-- No thread is there, and none is about to be started. -/
structure Quiet (s : State) : Prop where
  threads : s.threads = fun _ => none
  pc : s.pc.starting = false

/-- A call that stops the consumer is running, or it has returned and left no thread. -/
structure Halting (s : State) : Prop where
  shape : Shape s
  pc : s.pc.stopping = true ∨ s.pc = .idle ∧ Quiet s

theorem Quiet.loop_none {s : State} (hs : Quiet s) (id : ConsumerId) (answer : Bool) :
    step s (.loop id answer) = none := by
  simp [step, loopStep, hs.threads]

section

variable (id : ConsumerId) (caller : Caller)

@[simp] theorem starting_afterStop : (afterStop id caller).starting = false := by
  cases caller <;> rfl

@[simp] theorem starting_afterGuard : (afterGuard caller).starting = false := by
  cases caller <;> rfl

@[simp] theorem starting_afterDestroy : (afterDestroy caller).starting = false := by
  cases caller <;> rfl

end

/-- A statement that does not start a thread leads to none that does. -/
theorem starting_advance {s s' : State} {ok : Bool} (h : advance s ok = some s')
    (hpc : s.pc.starting = false) : s'.pc.starting = false := by
  unfold advance at h
  split at h <;> grind [Pc.starting, starting_afterStop, starting_afterGuard, starting_afterDestroy,
    Option.map_eq_some_iff, Option.bind_eq_some_iff]

/-- It leaves no thread where there was none. -/
theorem threads_advance {s s' : State} {ok : Bool} (h : advance s ok = some s')
    (hpc : s.pc.starting = false) (hs : s.threads = fun _ => none) : s'.threads = fun _ => none := by
  have hjoined : ∀ id, Function.update s.threads id none = fun _ => none := by
    intro id
    simp [hs]
  unfold advance at h
  -- the threads are changed by `startThread` and by `join`
  split at h <;> grind [Pc.starting, State.setConsumer, Option.map_eq_some_iff,
    Option.bind_eq_some_iff]

theorem Quiet.step {s s' : State} {a : Action} (hs : Quiet s) (ha : a ≠ .call .startConsumer)
    (h : step s a = some s') : Quiet s' := by
  cases a with
  | call c =>
    rcases step_call h with ⟨_, rfl⟩
    refine ⟨hs.threads, ?_⟩
    cases c with
    | startConsumer => exact (ha rfl).elim
    | _ => rfl
  | advance ok => exact ⟨threads_advance h hs.pc hs.threads, starting_advance h hs.pc⟩
  | loop id answer => simp [hs.loop_none] at h

theorem quiet_run {as : List Action} {s s' : State} (hs : Quiet s)
    (has : .call .startConsumer ∉ as) (h : run step s as = some s') : Quiet s' := by
  refine run_preserves (fun s a s' (ha : a ≠ .call .startConsumer) ht => ht.step ha) hs ?_ h
  rintro a ha rfl
  exact has ha

theorem stopping_afterStop (id : ConsumerId) {caller : Caller} (h : caller ≠ .replace) :
    (afterStop id caller).stopping = true ∨ afterStop id caller = .idle := by
  cases caller <;> simp_all [afterStop, Pc.stopping]

/-- A call that stops the consumer goes on, or returns. -/
theorem stopping_advance {s s' : State} {ok : Bool} (h : advance s ok = some s')
    (hpc : s.pc.stopping = true) : s'.pc.stopping = true ∨ s'.pc = .idle := by
  unfold advance at h
  split at h <;> grind [Pc.stopping, stopping_afterStop, afterGuard, afterDestroy,
    Option.map_eq_some_iff, Option.bind_eq_some_iff]

/-- When it returns, there is no thread. -/
theorem threads_returned {s s' : State} {ok : Bool} (hs : Shape s) (hpc : s.pc.stopping = true)
    (h : advance s ok = some s') (hidle : s'.pc = .idle) : s'.threads = fun _ => none := by
  cases hs with
  | absent habsent =>
    cases habsent with
    | stopConsumer caller hdirect =>
      have hs' := advance_stopConsumer_absent h
      subst hs'
      rfl
    | _ => simp [advance, Pc.stopping] at h hpc <;> simp [← h] at hidle
  | settled hsettled hworker =>
    cases hsettled with
    | stop caller hdirect =>
      cases hworker with
      | stopped =>
        have hs' := advance_stop_stopped h
        subst hs'
        simp
      | running loopPc hloop => simp [advance] at h; simp [← h] at hidle
    | _ => simp [advance, Pc.stopping] at h hpc <;> simp [← h] at hidle
  | join hdirect =>
    have hs' := advance_join h
    subst hs'
    simp
  | clearInitialized => simp [advance] at h; simp [← h]
  | _ => simp [advance, Pc.stopping, afterStop, afterDestroy] at h hpc <;> simp [← h] at hidle

theorem Halting.step {s s' : State} {a : Action} (hs : Halting s) (ha : ∀ c, a ≠ .call c)
    (h : step s a = some s') : Halting s' := by
  have hshape : Shape s' := shape_step s a s' hs.shape h
  refine ⟨hshape, ?_⟩
  -- while the call runs its loop may still make steps, after it there is none
  rcases hs.pc with hstopping | ⟨hidle, hquiet⟩
  · cases a with
    | call c => exact (ha c rfl).elim
    | advance ok =>
      rcases stopping_advance h hstopping with hgoes | hreturns
      · exact Or.inl hgoes
      · have hthreads := threads_returned hs.shape hstopping h hreturns
        exact Or.inr ⟨hreturns, hthreads, by simp [hreturns, Pc.starting]⟩
    | loop id answer =>
      exact Or.inl (loopStep_pc h ▸ hstopping)
  · cases a with
    | call c => exact (ha c rfl).elim
    | advance ok => simp [Lifecycle.step, advance, hidle] at h
    | loop id answer => simp [hquiet.loop_none] at h

/-- `c` is called in `s`, and the call has returned in `t`. -/
structure Returns (s : State) (c : Call) (as : List Action) (t : State) : Prop where
  run : run step s (.call c :: as) = some t
  only : ∀ d, .call d ∉ as
  idle : t.pc = .idle

/-- A call of `StopConsumer` or `Shutdown` that returns leaves no thread. -/
theorem Returns.quiet {s t : State} {c : Call} {as : List Action} (hs : Shape s)
    (hc : c = .stopConsumer ∨ c = .shutdown) (h : Returns s c as t) : Quiet t := by
  rcases run_cons_eq_some.1 h.run with ⟨u, hcall, hrest⟩
  have hentered : Halting u := by
    refine ⟨shape_step s _ u hs hcall, Or.inl ?_⟩
    rcases step_call hcall with ⟨_, rfl⟩
    rcases hc with rfl | rfl <;> rfl
  -- the call makes no further call before it returns
  have hend : Halting t := by
    refine run_preserves (fun s a s' (ha : ∀ d, a ≠ .call d) ht => ht.step ha) hentered ?_ hrest
    rintro a ha d rfl
    exact h.only d ha
  rcases hend.pc with hstopping | ⟨_, hquiet⟩
  · simp [h.idle, Pc.stopping] at hstopping
  · exact hquiet

/-- The life cycle of a Kafka client is safe in every run, and once `StopConsumer` or `Shutdown` has
returned, no loop makes a step before the next `StartConsumer`. -/
theorem lifecycle_safe {as : List Action} {s : State} (h : run step init as = some s) :
    Safe s ∧
    ∀ c bs t, c = .stopConsumer ∨ c = .shutdown → Returns s c bs t →
      ∀ cs u, .call .startConsumer ∉ cs → run step t cs = some u →
        ∀ id answer, step u (.loop id answer) = none := by
  have hs : Shape s := shape_run shape_init h
  refine ⟨hs.safe, ?_⟩
  intro c bs t hc hreturns cs u hcs hrun id answer
  have hquiet : Quiet u := quiet_run (hreturns.quiet hs hc) hcs hrun
  exact hquiet.loop_none id answer

/-- `Initialize` and `StartConsumer`, until the loop is processing a message. -/
def startup : List Action :=
  [.call .initializeClient, .advance true, .advance true, .advance true, .advance true,
    .call .startConsumer, .advance true, .advance true, .advance true, .advance true,
    .loop 1 true, .loop 1 true]

/-- The statements of `StopConsumer`, with the loop ending in between. -/
def stopping : List Action :=
  [.advance true, .advance true, .advance true, .loop 1 true, .loop 1 true, .advance true]

theorem lifecycle_safe_startup :
    ∃ s t, run step init startup = some s ∧ s.threads 1 = some .process ∧ Safe s ∧
      Returns s .stopConsumer stopping t ∧ ∀ id answer, step t (.loop id answer) = none := by
  have hprocess : (run step init startup).map (fun s => s.threads 1) = some (some .process) := by
    decide
  have hidle : (run step init (startup ++ .call .stopConsumer :: stopping)).map State.pc
      = some .idle := by
    decide
  rcases Option.map_eq_some_iff.1 hprocess with ⟨s, hs, hthread⟩
  rcases Option.map_eq_some_iff.1 hidle with ⟨t, ht, hpc⟩
  have hreturns : Returns s .stopConsumer stopping t := by
    refine ⟨by simpa [run_append, hs] using ht, ?_, hpc⟩
    simp [stopping]
  refine ⟨s, t, hs, hthread, (lifecycle_safe hs).1, hreturns, ?_⟩
  exact (lifecycle_safe hs).2 _ _ _ (Or.inl rfl) hreturns [] t (by simp) rfl

end Lifecycle
end Kafka
end ModerationService
