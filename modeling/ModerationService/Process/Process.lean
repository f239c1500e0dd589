import ModerationService.Library.SharedPtr
import ModerationService.Server.Server

/-!
# Process — who owns what while the process starts, serves and ends

`main.cpp` again, with the objects it shares and the threads that use them.  The locals of `main`,
`global_server_ptr` and the members of the objects are `std::shared_ptr`; the callback given to the
Kafka client has a `std::weak_ptr` to the service, and holds a reference only while it runs.  gRPC
calls use the handler through a plain pointer.

The main thread executes the statements of `Server.main`, then leaves the scope of its locals, and
the destructor of `global_server_ptr` runs last.  A destructor releases one reference at a time, so
the consumer thread, gRPC calls and signals may come in between.  The signal handler stays installed
to the end of the process.
-/

namespace ModerationService
namespace Process

open Library Server

/-! ## Objects -/

/-- What `main` makes with `std::make_shared`. -/
inductive Object where
  | repository
  | kafkaClient
  | service
  | handler
  | server
  deriving DecidableEq

instance : Fintype Object where
  elems := {.repository, .kafkaClient, .service, .handler, .server}
  complete := by
    intro o
    cases o <;> simp

/-- The shared pointers among the members, in the order the destructor releases them. -/
def members : Object → List Object
  | .repository => []
  | .kafkaClient => []
  | .service => [.kafkaClient, .repository]
  | .handler => [.service]
  | .server => [.handler]

/-! ## States -/

/-- Where the consumer thread is. -/
inductive Worker where
  /-- `while (running_.load())` -/
  | test
  /-- `weakThis.lock()` in the callback -/
  | lock
  /-- `self->HandleModerationResult(...)` -/
  | handleResult
  /-- the references that the end of the callback has still to release -/
  | release (pending : List Object)
  | returned
  deriving DecidableEq

structure State where
  main : Server.State
  /-- the use counts -/
  counts : Object → Nat
  /-- the shared pointers in the scope of `main`, the last one first -/
  locals : List Object
  /-- the references that the main thread has still to release -/
  pending : List Object
  /-- of the Kafka client: `consumer_` exists while it is set -/
  initialized_ : Bool
  running_ : Bool
  /-- the consumer thread, until it has been joined -/
  worker : Option Worker
  /-- whether the main thread is in `consumer_thread_.join()` -/
  joining : Bool
  /-- the gRPC calls that are being handled -/
  calls : Nat
  /-- whether the destructors of globals have begun -/
  exiting : Bool
  exited : Bool
  /-- whether `std::terminate` has been called -/
  terminated : Bool
  /-- whether `Stop` has been called on a server that had been destroyed -/
  stopOnDestroyed : Bool

def init : State where
  main := Server.init
  counts := fun _ => 0
  locals := []
  pending := []
  initialized_ := false
  running_ := false
  worker := none
  joining := false
  calls := 0
  exiting := false
  exited := false
  terminated := false
  stopOnDestroyed := false

/-! ## The main thread -/

/-- `auto x = std::make_shared<X>(...)` -/
def State.makeShared (s : State) (o : Object) : State :=
  { s with
    counts := SharedPtr.make members o s.counts
    locals := o :: s.locals }

/-- What a statement of the set-up does to the objects, when it succeeds or throws. -/
def State.setUp (s : State) : SetUp → Bool → State
  | .repository, true => s.makeShared .repository
  | .kafkaClient, true => s.makeShared .kafkaClient
  | .service, true => s.makeShared .service
  | .kafkaCallback, true => { s with initialized_ := true }
  | .startConsumer, true => { s with running_ := true, worker := some .test }
  -- `running_` is set before the thread is created
  | .startConsumer, false => { s with running_ := true }
  | .handler, true => s.makeShared .handler
  | .server, true => s.makeShared .server
  | _, _ => s

/-- `KafkaClient::StopConsumer` up to the `join`. -/
def State.stopConsumer (s : State) : State :=
  if s.initialized_ && s.running_ then
    { s with running_ := false, joining := true }
  else
    s

/-- The main thread drops a reference.  The destructor of the client calls `Shutdown`. -/
def State.release (s : State) (o : Object) (rest : List Object) : State :=
  let dropped := SharedPtr.drop members o s.counts
  let s' := { s with
    counts := dropped.2
    pending := dropped.1 ++ rest }
  if o = .kafkaClient ∧ s.counts o = 1 then
    { s'.stopConsumer with initialized_ := false }
  else
    s'

/-- What follows the `return` of `main`: its scope is left, then globals are destroyed. -/
def State.leave (s : State) : State :=
  match s.pending, s.locals with
  | o :: rest, _ => s.release o rest
  | [], o :: rest => { s with locals := rest, pending := [o] }
  | [], [] =>
      if s.exiting then
        { s with exited := true }
      else
        { s with
          exiting := true
          pending := if s.main.global_server_ptr then [.server] else [] }

/-- The statement of `main` itself. -/
def State.advance (s : State) (ok : Bool) : Option State :=
  (Server.main s.main ok).map (fun main => { s with main := main })

def mainThread (s : State) (ok : Bool) : Option State :=
  if s.joining then
    match s.worker with
    | none | some .returned => some { s with worker := none, joining := false }
    | some _ => none
  else
    match s.main.pc with
    | .setUp statement => (s.advance ok).map (fun s' => s'.setUp statement ok)
    | .publish => (s.advance ok).map
        (fun s' => { s' with counts := SharedPtr.copy .server s'.counts })
    -- `Wait` returns when no call is left
    | .waiting => if s.calls = 0 then s.advance ok else none
    | .stopConsumer =>
        if s.initialized_ && s.running_ then some s.stopConsumer else s.advance ok
    | .shutdown =>
        if s.initialized_ && s.running_ then
          some s.stopConsumer
        else
          (s.advance ok).map (fun s' => { s' with initialized_ := false })
    | .returned _ => some s.leave
    | _ => s.advance ok

/-! ## The consumer thread -/

/-- `processes` says whether a message is consumed that gets as far as the callback. -/
def consumerThread (s : State) (processes : Bool) : Option State :=
  match s.worker with
  | none | some .returned => none
  | some .test =>
      let next : Worker := if !s.running_ then .returned else if processes then .lock else .test
      some { s with worker := some next }
  | some .lock =>
      if 0 < s.counts .service then
        some { s with
          counts := SharedPtr.copy .service s.counts
          worker := some .handleResult }
      else
        some { s with worker := some .test }
  | some .handleResult => some { s with worker := some (.release [.service]) }
  | some (.release []) => some { s with worker := some .test }
  | some (.release (o :: rest)) =>
      let dropped := SharedPtr.drop members o s.counts
      some { s with
        counts := dropped.2
        worker := some (.release (dropped.1 ++ rest))
        -- the destructor of the client would have to join the thread it runs on
        terminated := decide (o = .kafkaClient ∧ s.counts o = 1) }

/-! ## Signals -/

/-- `signalHandler`, whichever statement or destructor the main thread is at. -/
def State.handleSignal (s : State) : State :=
  -- the destructor of `global_server_ptr` leaves the pointer in it, so `Stop` is called all the same
  if s.main.global_server_ptr = true ∧ s.counts .server = 0 then
    { s with
      main := { s.main with shutdown_requested := true }
      stopOnDestroyed := true }
  else
    { s with main := signalHandler s.main }

/-! ## Steps -/

inductive Action where
  | main (ok : Bool)
  | signal
  | consumer (processes : Bool)
  /-- a gRPC call comes in -/
  | call
  | callReturns
  deriving DecidableEq

/-- Nothing of the process runs any more, or nothing can be said of what it does. -/
def State.over (s : State) : Bool :=
  s.exited || s.terminated || s.stopOnDestroyed || decide (s.main.pc = .crashed)

def step (s : State) (a : Action) : Option State :=
  if s.over then
    none
  else
    match a with
    | .main ok => mainThread s ok
    | .signal => some s.handleSignal
    | .consumer processes => consumerThread s processes
    | .call =>
        if s.main.server_ && !s.main.shutdownCalled then
          some { s with calls := s.calls + 1 }
        else
          none
    | .callReturns => if 0 < s.calls then some { s with calls := s.calls - 1 } else none

/-! ## What a step does -/

/-- What a step of the main thread is: a `join` returns, or it executes a statement, or it leaves. -/
inductive MainStep (s : State) (ok : Bool) : State → Prop where
  | joined (hjoining : s.joining = true) (hworker : s.worker = none ∨ s.worker = some .returned) :
      MainStep s ok { s with
        worker := none
        joining := false }
  | setUp {t : State} {statement : SetUp} (hjoining : s.joining = false)
      (hpc : s.main.pc = .setUp statement) (h : s.advance ok = some t) :
      MainStep s ok (t.setUp statement ok)
  | publish {t : State} (hjoining : s.joining = false) (hpc : s.main.pc = .publish)
      (h : s.advance ok = some t) :
      MainStep s ok { t with counts := SharedPtr.copy .server t.counts }
  | stop (hjoining : s.joining = false) (hcalls : s.initialized_ = true ∧ s.running_ = true)
      (hpc : s.main.pc = .stopConsumer ∨ s.main.pc = .shutdown) : MainStep s ok s.stopConsumer
  | shutdown {t : State} (hjoining : s.joining = false) (hpc : s.main.pc = .shutdown)
      (h : s.advance ok = some t) : MainStep s ok { t with initialized_ := false }
  | leave {code : Nat} (hjoining : s.joining = false) (hpc : s.main.pc = .returned code) :
      MainStep s ok s.leave
  /-- a statement that does nothing to the objects -/
  | plain {t : State} (hjoining : s.joining = false) (h : s.advance ok = some t)
      (hsetUp : ∀ statement, s.main.pc ≠ .setUp statement) (hpublish : s.main.pc ≠ .publish)
      (hshutdown : s.main.pc ≠ .shutdown) (hwaiting : s.main.pc = .waiting → s.calls = 0)
      (hstop : s.main.pc = .stopConsumer → ¬ (s.initialized_ = true ∧ s.running_ = true)) :
      MainStep s ok t

theorem mainThread_step {s s' : State} {ok : Bool} (h : mainThread s ok = some s') :
    MainStep s ok s' := by
  unfold mainThread at h
  split at h
  · rename_i hjoining
    split at h
    · rename_i hworker
      cases h
      exact .joined hjoining (Or.inl hworker)
    · rename_i hworker
      cases h
      exact .joined hjoining (Or.inr hworker)
    · cases h
  · rename_i hnot
    have hjoining : s.joining = false := by
      simpa using hnot
    split at h
    case h_1 statement hpc =>
      rcases Option.map_eq_some_iff.1 h with ⟨t, ht, rfl⟩
      exact .setUp hjoining hpc ht
    case h_2 hpc =>
      rcases Option.map_eq_some_iff.1 h with ⟨t, ht, rfl⟩
      exact .publish hjoining hpc ht
    case h_3 hpc =>
      rcases Option.ite_none_right_eq_some.1 h with ⟨hcalls, hadvance⟩
      exact .plain hjoining hadvance (by simp [hpc]) (by simp [hpc]) (by simp [hpc])
        (fun _ => hcalls) (by simp [hpc])
    case h_4 hpc =>
      split at h
      · rename_i hcalls
        cases h
        exact .stop hjoining (by simpa using hcalls) (Or.inl hpc)
      · rename_i hidle
        exact .plain hjoining h (by simp [hpc]) (by simp [hpc]) (by simp [hpc]) (by simp [hpc])
          (fun _ => by simpa using hidle)
    case h_5 hpc =>
      split at h
      · rename_i hcalls
        cases h
        exact .stop hjoining (by simpa using hcalls) (Or.inr hpc)
      · rcases Option.map_eq_some_iff.1 h with ⟨t, ht, rfl⟩
        exact .shutdown hjoining hpc ht
    case h_6 code hpc =>
      cases h
      exact .leave hjoining hpc
    case h_7 hsetUp hpublish hwaiting hstop hshutdown _ =>
      exact .plain hjoining h hsetUp hpublish hshutdown (fun hpc => absurd hpc hwaiting)
        (fun hpc => absurd hpc hstop)

/-- A step is one of the main thread, a signal or one of the consumer thread, or a gRPC call comes or
returns. -/
theorem step_cases {s s' : State} {a : Action} (h : step s a = some s') :
    (∃ ok, a = .main ok ∧ MainStep s ok s') ∨ (a = .signal ∧ s' = s.handleSignal) ∨
      (∃ processes, a = .consumer processes ∧ consumerThread s processes = some s') ∨
      ((a = .call ∨ a = .callReturns) ∧ ∃ calls, s' = { s with calls := calls }) := by
  rcases Option.ite_none_left_eq_some.1 h with ⟨_, hstep⟩
  cases a with
  | main ok => exact Or.inl ⟨ok, rfl, mainThread_step hstep⟩
  | signal => exact Or.inr (Or.inl ⟨rfl, (Option.some.inj hstep).symm⟩)
  | consumer processes => exact Or.inr (Or.inr (Or.inl ⟨processes, rfl, hstep⟩))
  | call =>
    rcases Option.ite_none_right_eq_some.1 hstep with ⟨_, hs'⟩
    exact Or.inr (Or.inr (Or.inr ⟨Or.inl rfl, _, (Option.some.inj hs').symm⟩))
  | callReturns =>
    rcases Option.ite_none_right_eq_some.1 hstep with ⟨_, hs'⟩
    exact Or.inr (Or.inr (Or.inr ⟨Or.inr rfl, _, (Option.some.inj hs').symm⟩))

/-- Nothing happens any more once the process is over. -/
theorem running_of_step {s s' : State} {a : Action} (h : step s a = some s') :
    s.exited = false ∧ s.terminated = false ∧ s.stopOnDestroyed = false ∧
      s.main.pc ≠ .crashed := by
  have hover := (Option.ite_none_left_eq_some.1 h).1
  simp [State.over] at hover
  exact ⟨hover.1.1.1, hover.1.1.2, hover.1.2, hover.2⟩

end Process
end ModerationService
