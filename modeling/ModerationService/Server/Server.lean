import ModerationService.Library.Machine

/-!
# Server — `main`, `Server::Start` and the signal handler

`main.cpp` and `server/server.cpp` from the moment the handlers are installed.  The main thread
executes one statement at a time, and `signalHandler` runs as one step between any two of them.
-/

namespace ModerationService
namespace Server

/-! ## States -/

/-- The statements of `main` before the server is published.  Each of them may throw. -/
inductive SetUp where
  | config
  | kafkaConfig
  | forbiddenWords
  | repository
  | kafkaClient
  | service
  | kafkaCallback
  | startConsumer
  | handler
  | server
  deriving DecidableEq, Repr

/-- The statement the main thread executes next. -/
inductive Pc where
  | setUp (statement : SetUp)
  /-- `global_server_ptr = server` -/
  | publish
  /-- `this->server_ = builder.BuildAndStart()` -/
  | buildAndStart
  /-- `this->server_->Wait()` -/
  | wait
  /-- blocked in `Wait` -/
  | waiting
  /-- `while (!shutdown_requested.load())` -/
  | poll
  | sleep
  /-- `kafkaClient->StopConsumer()` -/
  | stopConsumer
  /-- `kafkaClient->Flush()` -/
  | flush
  /-- `kafkaClient->Shutdown()` -/
  | shutdown
  | returned (code : Nat)
  /-- a null pointer has been dereferenced -/
  | crashed
  deriving DecidableEq, Repr

/-- What follows a statement of the set-up. -/
def SetUp.next : SetUp → Pc
  | .config => .setUp .kafkaConfig
  | .kafkaConfig => .setUp .forbiddenWords
  | .forbiddenWords => .setUp .repository
  | .repository => .setUp .kafkaClient
  | .kafkaClient => .setUp .service
  | .service => .setUp .kafkaCallback
  | .kafkaCallback => .setUp .startConsumer
  | .startConsumer => .setUp .handler
  | .handler => .setUp .server
  | .server => .publish

structure State where
  pc : Pc
  shutdown_requested : Bool
  /-- whether `global_server_ptr` is set -/
  global_server_ptr : Bool
  /-- whether `server_` is set -/
  server_ : Bool
  /-- whether `Shutdown` has been called on `server_` -/
  shutdownCalled : Bool
  /-- whether `Stop` has been run without a `server_` -/
  stopOnNull : Bool
  deriving DecidableEq, Repr

/-- The handlers have just been installed. -/
def init : State where
  pc := .setUp .config
  shutdown_requested := false
  global_server_ptr := false
  server_ := false
  shutdownCalled := false
  stopOnNull := false

/-! ## Steps -/

/-- `Server::Stop` -/
def stop (s : State) : State :=
  if s.server_ then
    { s with shutdownCalled := true }
  else
    { s with stopOnNull := true, pc := .crashed }

def signalHandler (s : State) : State :=
  let requested := { s with shutdown_requested := true }
  if requested.global_server_ptr then stop requested else requested

/-- One statement of the main thread; `ok` says whether it succeeds.  In the set-up a failure is an
exception, and `BuildAndStart` fails with a null pointer. -/
def main (s : State) (ok : Bool) : Option State :=
  match s.pc with
  | .setUp statement =>
      some { s with pc := if ok then statement.next else .returned 1 }
  | .publish => some { s with global_server_ptr := true, pc := .buildAndStart }
  | .buildAndStart => some { s with server_ := ok, pc := .wait }
  | .wait => some { s with pc := if s.server_ then .waiting else .crashed }
  -- `Wait` returns once `Shutdown` has been called
  | .waiting => if s.shutdownCalled then some { s with pc := .poll } else none
  | .poll => some { s with pc := if s.shutdown_requested then .stopConsumer else .sleep }
  | .sleep => some { s with pc := .poll }
  | .stopConsumer => some { s with pc := .flush }
  | .flush => some { s with pc := .shutdown }
  | .shutdown => some { s with pc := .returned 0 }
  | .returned _ => none
  | .crashed => none

inductive Action where
  | main (ok : Bool)
  | signal
  deriving DecidableEq, Repr

def Pc.ended : Pc → Bool
  | .returned _ | .crashed => true
  | _ => false

def step (s : State) : Action → Option State
  | .main ok => main s ok
  | .signal => if s.pc.ended then none else some (signalHandler s)

end Server
end ModerationService
