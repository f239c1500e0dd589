import ModerationService.Process.Process

/-!
# Ownership — the invariant of the process

`Control` relates the flags of the Kafka client, and the calls that are being handled, to the
statement of the main thread.  `Owned` says that the use counts are what is held, what the locals of
`main` are at each statement, and that the client exists while its consumer thread does.  Both hold in
every run (`inv_run`).
-/

namespace ModerationService
namespace Process

open Library Machine Server SharedPtr

/-! ## Statements of the main thread -/

/-- `StartConsumer` has not returned. -/
def beforeConsumer : Pc → Bool
  | .setUp .handler | .setUp .server => false
  | .setUp _ => true
  | _ => false

/-- The client has been initialized and not been shut down. -/
def withClient : Pc → Bool
  | .setUp .startConsumer | .setUp .handler | .setUp .server => true
  | .setUp _ | .returned _ | .crashed => false
  | _ => true

/-- `StartConsumer` has returned, and nothing has stopped the consumer. -/
def consuming : Pc → Bool
  | .setUp .handler | .setUp .server | .publish | .buildAndStart | .wait | .waiting | .poll | .sleep
  | .crashed => true
  | _ => false

/-- `StopConsumer` has returned. -/
def afterStop : Pc → Bool
  | .flush | .shutdown => true
  | .returned code => code != 1
  | _ => false

/-- The server has not been published. -/
def unpublished : Pc → Bool
  | .setUp _ | .publish => true
  | _ => false

/-- The scope of `main` is being left, or has been left. -/
def hasReturned : Pc → Bool
  | .returned _ => true
  | _ => false

/-- The locals of `main` at a statement. -/
def scopeAt : Pc → List Object
  | .setUp .config | .setUp .kafkaConfig | .setUp .forbiddenWords | .setUp .repository => []
  | .setUp .kafkaClient => [.repository]
  | .setUp .service => [.kafkaClient, .repository]
  | .setUp .kafkaCallback | .setUp .startConsumer | .setUp .handler =>
      [.service, .kafkaClient, .repository]
  | .setUp .server => [.handler, .service, .kafkaClient, .repository]
  | _ => [.server, .handler, .service, .kafkaClient, .repository]

/-- The object that a statement of the set-up makes. -/
def made : SetUp → Option Object
  | .repository => some .repository
  | .kafkaClient => some .kafkaClient
  | .service => some .service
  | .handler => some .handler
  | .server => some .server
  | _ => none

/-! ## Flags -/

structure Control (s : State) : Prop where
  idle : beforeConsumer s.main.pc = true → s.worker = none ∧ s.running_ = false
  initialized : withClient s.main.pc = true → s.initialized_ = true
  stopped : afterStop s.main.pc = true → s.worker = none ∧ s.running_ = false
  published : unpublished s.main.pc = true → s.main.global_server_ptr = false
  joining : s.joining = true → s.running_ = false ∧
    (s.main.pc = .stopConsumer ∨ ∃ code, s.main.pc = .returned code)
  consuming : consuming s.main.pc = true → s.worker ≠ none ∧ s.running_ = true
  active : s.worker ≠ none → s.joining = false → s.running_ = true ∧ s.initialized_ = true
  /-- a server that has been published is listening, but for two statements and for a crash -/
  listening : s.main.global_server_ptr = true → s.main.server_ = true ∨
    s.main.pc = .buildAndStart ∨ s.main.pc = .wait ∨ s.main.pc = .crashed
  crashed : s.main.pc = .crashed → s.main.server_ = false
  succeeded : s.main.global_server_ptr = true → s.main.pc ≠ .returned 1
  serving : s.main.server_ = true →
    s.main.shutdownCalled = true ∨ s.main.pc = .wait ∨ s.main.pc = .waiting
  calls : 0 < s.calls → s.main.server_ = true ∧ (s.main.pc = .wait ∨ s.main.pc = .waiting)

theorem control_init : Control init := by
  constructor <;>
    simp [init, Server.init, beforeConsumer, withClient, consuming, afterStop, unpublished]

theorem advance_eq_some {s s' : State} {ok : Bool} :
    s.advance ok = some s' ↔
      ∃ main, Server.main s.main ok = some main ∧ s' = { s with main := main } := by
  simp [State.advance, eq_comm]

/-- A signal leaves the main thread where it is, unless `Stop` finds no `server_`. -/
theorem handleSignal_frame (s : State) :
    ∃ main stopOnDestroyed,
      s.handleSignal = { s with
        main := main
        stopOnDestroyed := stopOnDestroyed } ∧
      main.server_ = s.main.server_ ∧ main.global_server_ptr = s.main.global_server_ptr ∧
      (s.main.shutdownCalled = true → main.shutdownCalled = true) ∧
      (main.pc = s.main.pc ∨
        main.pc = .crashed ∧ s.main.global_server_ptr = true ∧ s.main.server_ = false) := by
  unfold State.handleSignal
  split
  · -- the server has been destroyed
    exact ⟨_, true, rfl, rfl, rfl, id, Or.inl rfl⟩
  · refine ⟨signalHandler s.main, s.stopOnDestroyed, rfl, ?_⟩
    unfold signalHandler stop
    grind

section Main

variable {s s' : State} {ok : Bool}

theorem Control.not_joining {statement : SetUp} (hs : Control s)
    (hpc : s.main.pc = .setUp statement) : s.joining = false := by
  cases hjoining : s.joining with
  | false => rfl
  | true => simpa [hpc] using (hs.joining hjoining).2

theorem control_setUp {statement : SetUp} (hs : Control s) (hpc : s.main.pc = .setUp statement)
    (h : s.advance ok = some s') : Control (s'.setUp statement ok) := by
  rcases advance_eq_some.1 h with ⟨main, hmain, rfl⟩
  have hjoining := hs.not_joining hpc
  have hserver : s.main.server_ = true → s.main.shutdownCalled = true := by
    simpa [hpc] using hs.serving
  have hcalls : s.calls = 0 := by
    simpa [hpc] using hs.calls
  rcases hs with ⟨hidle, hinit, _, hpublished, _, hconsuming, hactive, _, _, _, _, _⟩
  simp only [Server.main, hpc, Option.some.injEq] at hmain
  subst hmain
  -- a statement of the set-up changes few flags, so each field is seen from those before
  cases statement <;> cases ok <;> constructor <;>
    simp_all [State.setUp, State.makeShared, SetUp.next, beforeConsumer, withClient, consuming,
      afterStop, unpublished]

/-- A statement that does nothing to the objects. -/
theorem control_advance (hs : Control s) (hjoining : s.joining = false)
    (hwaiting : s.main.pc = .waiting → s.calls = 0)
    (hstop : s.main.pc = .stopConsumer → s.running_ = false) (hshutdown : s.main.pc ≠ .shutdown)
    (hsetUp : ∀ statement, s.main.pc ≠ .setUp statement) (h : s.advance ok = some s') :
    Control s' := by
  rcases hs with ⟨_, _, _, _, _, _, _, _, _, _, _, _⟩
  rcases advance_eq_some.1 h with ⟨main, hmain, rfl⟩
  unfold Server.main at hmain
  constructor <;> grind [withClient, beforeConsumer, consuming, afterStop, unpublished]

theorem control_leave {code : Nat} (hs : Control s) (hpc : s.main.pc = .returned code)
    (hjoining : s.joining = false) : Control s.leave := by
  rcases hs with ⟨_, _, _, _, _, _, _, _, _, _, _, _⟩
  unfold State.leave State.release State.stopConsumer
  constructor <;> grind [withClient, beforeConsumer, consuming, unpublished]

theorem control_shutdown (hs : Control s) (hpc : s.main.pc = .shutdown)
    (h : s.advance ok = some s') : Control { s' with initialized_ := false } := by
  have hstopped := hs.stopped (by simp [hpc, afterStop])
  rcases hs with ⟨_, _, _, _, _, _, _, _, _, _, _, _⟩
  rcases advance_eq_some.1 h with ⟨main, hmain, rfl⟩
  simp only [Server.main, hpc, Option.some.injEq] at hmain
  constructor <;> grind [withClient, beforeConsumer, consuming, afterStop, unpublished]

theorem control_main (hs : Control s) (h : MainStep s ok s') : Control s' := by
  cases h with
  | joined hjoining hworker =>
    rcases hs with ⟨_, _, _, _, _, _, _, _, _, _, _, _⟩
    constructor <;> grind
  | setUp hjoining hpc h =>
    exact control_setUp hs hpc h
  | publish hjoining hpc h =>
    have hcontrol := control_advance hs hjoining (by simp [hpc]) (by simp [hpc]) (by simp [hpc])
      (by simp [hpc]) h
    rcases hcontrol with ⟨_, _, _, _, _, _, _, _, _, _, _, _⟩
    constructor <;> assumption
  | stop hjoining hcalls hpc =>
    rcases hs with ⟨_, _, _, _, _, _, _, _, _, _, _, _⟩
    unfold State.stopConsumer
    constructor <;> grind [withClient, beforeConsumer, consuming, afterStop, unpublished]
  | shutdown hjoining hpc h =>
    exact control_shutdown hs hpc h
  | leave hjoining hpc =>
    exact control_leave hs hpc hjoining
  | plain hjoining h hsetUp hpublish hshutdown hwaiting hstop =>
    refine control_advance hs hjoining hwaiting ?_ hshutdown hsetUp h
    intro hpc
    have hinit := hs.initialized (by simp [hpc, withClient])
    simpa [hinit] using hstop hpc

theorem control_consumer {processes : Bool} (hs : Control s)
    (h : consumerThread s processes = some s') : Control s' := by
  rcases hs with ⟨_, _, _, _, _, _, _, _, _, _, _, _⟩
  unfold consumerThread at h
  constructor <;> grind

theorem control_signal (hs : Control s) : Control s.handleSignal := by
  rcases handleSignal_frame s with ⟨main, _, hs', hserver, hglobal, hcalled, hpc⟩
  rcases hs with ⟨_, _, _, _, _, _, _, _, _, _, _, _⟩
  rw [hs']
  constructor <;> grind [withClient, beforeConsumer, consuming, afterStop, unpublished]

end Main

theorem control_step {s s' : State} {a : Action} (hs : Control s) (h : step s a = some s') :
    Control s' := by
  rcases step_cases h with ⟨ok, rfl, hmain⟩ | ⟨rfl, rfl⟩ | ⟨processes, rfl, hconsumer⟩ | ⟨hcall, _⟩
  · exact control_main hs hmain
  · exact control_signal hs
  · exact control_consumer hs hconsumer
  · rcases hs with ⟨_, _, _, _, _, _, _, _, _, _, _, _⟩
    rcases hcall with rfl | rfl <;> unfold step at h <;> constructor <;> grind

/-! ## References -/

/-- The references that the consumer thread holds. -/
def workerHolds : Option Worker → List Object
  | some .handleResult => [.service]
  | some (.release pending) => pending
  | _ => []

/-- What holds `global_server_ptr`. -/
def globals (s : State) : List Object :=
  if s.main.global_server_ptr && !s.exiting then [.server] else []

def State.holders (s : State) : List Object :=
  s.locals ++ (s.pending ++ (globals s ++ workerHolds s.worker))

/-- An object is above what its members refer to. -/
def rank : Object → Nat
  | .repository => 0
  | .kafkaClient => 1
  | .service => 2
  | .handler => 3
  | .server => 4

theorem rank_members : ∀ p, ∀ o ∈ members p, rank o < rank p := by
  intro p
  cases p <;> simp [members, rank]

structure Owned (s : State) : Prop where
  counted : Counted members s.counts s.holders
  scope : hasReturned s.main.pc = false →
    s.locals = scopeAt s.main.pc ∧ s.pending = [] ∧ s.exiting = false
  /-- the callback holds nothing above the service -/
  below : ∀ o ∈ workerHolds s.worker, rank o ≤ 2
  thread : s.worker ≠ none → s.terminated = false →
    0 < s.counts .kafkaClient ∨ s.joining = true

theorem owned_init : Owned init where
  counted := counted_empty members
  scope := fun _ => ⟨rfl, rfl, rfl⟩
  below := by
    simp [init, workerHolds]
  thread := by
    simp [init]

section Objects

variable {s s' : State}

@[simp] theorem stopConsumer_counts (s : State) : s.stopConsumer.counts = s.counts := by
  unfold State.stopConsumer
  split <;> rfl

@[simp] theorem stopConsumer_worker (s : State) : s.stopConsumer.worker = s.worker := by
  unfold State.stopConsumer
  split <;> rfl

@[simp] theorem stopConsumer_main (s : State) : s.stopConsumer.main = s.main := by
  unfold State.stopConsumer
  split <;> rfl

@[simp] theorem stopConsumer_terminated (s : State) :
    s.stopConsumer.terminated = s.terminated := by
  unfold State.stopConsumer
  split <;> rfl

@[simp] theorem stopConsumer_holders (s : State) : s.stopConsumer.holders = s.holders := by
  unfold State.stopConsumer
  split <;> rfl

/-- What a statement of the set-up makes is above its locals, and above what the callback may hold
once there is one; its members refer to locals. -/
theorem made_spec {statement : SetUp} {o : Object} (ho : made statement = some o) :
    (∀ r ∈ scopeAt (.setUp statement), rank r < rank o) ∧
      (beforeConsumer (.setUp statement) = true ∨ 2 < rank o) ∧
      (∀ x ∈ members o, x ∈ scopeAt (.setUp statement)) := by
  cases statement <;> simp only [made, Option.some.injEq, reduceCtorEq] at ho <;> subst ho <;>
    simp [scopeAt, rank, members, beforeConsumer]

theorem scopeAt_made {statement : SetUp} {o : Object} (ho : made statement = some o) :
    scopeAt statement.next = o :: scopeAt (.setUp statement) := by
  cases statement <;> simp only [made, Option.some.injEq, reduceCtorEq] at ho <;> subst ho <;> rfl

theorem setUp_made {statement : SetUp} {o : Object} (ho : made statement = some o) :
    s.setUp statement true = s.makeShared o := by
  cases statement <;> simp only [made, Option.some.injEq, reduceCtorEq] at ho <;> subst ho <;> rfl

/-- The object does not exist yet, and what its members refer to does. -/
theorem Owned.ready (hs : Owned s) (hcontrol : Control s) {statement : SetUp}
    (hpc : s.main.pc = .setUp statement) {o : Object} (ho : made statement = some o) :
    s.counts o = 0 ∧ ∀ x ∈ members o, 0 < s.counts x := by
  rcases made_spec ho with ⟨hlocals, hworker, hmembers⟩
  have hscope := hs.scope (by simp [hpc, hasReturned])
  rw [hpc] at hscope
  have hglobals : globals s = [] := by
    simp [globals, hcontrol.published (by simp [hpc, unpublished])]
  -- what is held, by the locals and by the callback, is below the new object
  refine ⟨hs.counted.dead_of_rank_lt rank rank_members ?_, ?_⟩
  · intro r hr
    rw [State.holders, hscope.1, hscope.2.1, hglobals] at hr
    rcases List.mem_append.1 hr with hr | hr
    · exact hlocals r hr
    · have hr' : r ∈ workerHolds s.worker := by
        simpa using hr
      rcases hworker with hbefore | habove
      · have hidle := hcontrol.idle (by rw [hpc]; exact hbefore)
        simp [hidle.1, workerHolds] at hr'
      · have hbelow := hs.below r hr'
        omega
  · intro x hx
    refine hs.counted.live_of_holder (List.mem_append_left _ ?_)
    rw [hscope.1]
    exact hmembers x hx

/-- What the main thread and the signals change of `Server.State`. -/
theorem Owned.setMain (hs : Owned s) {main : Server.State}
    (hglobal : main.global_server_ptr = s.main.global_server_ptr)
    (hnext : hasReturned main.pc = false →
      hasReturned s.main.pc = false ∧ scopeAt main.pc = scopeAt s.main.pc) :
    Owned { s with main := main } := by
  have hglobals : globals { s with main := main } = globals s := by
    simp only [globals, hglobal]
  refine ⟨?_, ?_, hs.below, hs.thread⟩
  · have hcounted := hs.counted
    rw [State.holders] at hcounted ⊢
    rw [hglobals]
    exact hcounted
  · intro hreturned
    rcases hnext hreturned with ⟨hbefore, hscope⟩
    have hlocals := hs.scope hbefore
    exact ⟨hlocals.1.trans hscope.symm, hlocals.2⟩

/-- A statement that does nothing to the objects. -/
theorem owned_advance {ok : Bool} (hs : Owned s) (h : s.advance ok = some s')
    (hglobal : s'.main.global_server_ptr = s.main.global_server_ptr)
    (hnext : hasReturned s'.main.pc = false →
      hasReturned s.main.pc = false ∧ scopeAt s'.main.pc = scopeAt s.main.pc) : Owned s' := by
  rcases advance_eq_some.1 h with ⟨main, hmain, rfl⟩
  exact hs.setMain hglobal hnext

/-- The result of a statement of the set-up. -/
theorem advance_setUp {statement : SetUp} {ok : Bool} (hpc : s.main.pc = .setUp statement)
    (h : s.advance ok = some s') :
    s' = { s with main := { s.main with pc := if ok then statement.next else .returned 1 } } := by
  rcases advance_eq_some.1 h with ⟨main, hmain, rfl⟩
  simp only [Server.main, hpc, Option.some.injEq] at hmain
  rw [← hmain]

/-- A statement of the set-up that makes an object. -/
theorem owned_makeShared {statement : SetUp} {o : Object} (hs : Owned s) (hcontrol : Control s)
    (hpc : s.main.pc = .setUp statement) (h : s.advance true = some s')
    (ho : made statement = some o) : Owned (s'.makeShared o) := by
  rcases hs.ready hcontrol hpc ho with ⟨hnew, hlive⟩
  have hscope := hs.scope (by simp [hpc, hasReturned])
  rw [hpc] at hscope
  rw [advance_setUp hpc h]
  refine ⟨hs.counted.make hnew hlive, ?_, hs.below, ?_⟩
  · intro _
    refine ⟨?_, hscope.2⟩
    show o :: s.locals = scopeAt statement.next
    rw [hscope.1, scopeAt_made ho]
  · intro hthread hterminated
    rcases hs.thread hthread hterminated with hlive | hjoining
    · exact Or.inl (make_pos hlive)
    · exact Or.inr hjoining

/-- The thread holds nothing when it starts, and the client is a local of `main`. -/
theorem owned_startConsumer (hs : Owned s) (hcontrol : Control s)
    (hpc : s.main.pc = .setUp .startConsumer) (h : s.advance true = some s') :
    Owned { s' with
      running_ := true
      worker := some .test } := by
  have hidle := hcontrol.idle (by simp [hpc, beforeConsumer])
  have hscope := hs.scope (by simp [hpc, hasReturned])
  rw [hpc] at hscope
  rw [advance_setUp hpc h]
  refine ⟨?_, fun _ => hscope, by simp [workerHolds], ?_⟩
  · have hcounted := hs.counted
    rw [State.holders, hidle.1] at hcounted
    exact hcounted
  · intro _ _
    left
    refine hs.counted.live_of_holder (List.mem_append_left _ ?_)
    rw [hscope.1]
    simp [scopeAt]

theorem owned_setUp {statement : SetUp} {ok : Bool} (hs : Owned s) (hcontrol : Control s)
    (hpc : s.main.pc = .setUp statement) (h : s.advance ok = some s') :
    Owned (s'.setUp statement ok) := by
  -- no object is made, so the locals stay as they are
  have hplain : ok = false ∨ scopeAt statement.next = scopeAt (.setUp statement) → Owned s' := by
    intro hsame
    refine owned_advance hs h ?_ ?_
    · rw [advance_setUp hpc h]
    · rw [advance_setUp hpc h, hpc]
      rcases hsame with rfl | hsame
      · simp [hasReturned]
      · cases ok with
        | false => simp [hasReturned]
        | true => exact fun _ => ⟨rfl, hsame⟩
  cases ok with
  | false =>
    rcases hplain (Or.inl rfl) with ⟨hcounted, hscope, hbelow, hthread⟩
    cases statement <;> exact ⟨hcounted, hscope, hbelow, hthread⟩
  | true =>
    cases hmade : made statement with
    | some o =>
      rw [setUp_made hmade]
      exact owned_makeShared hs hcontrol hpc h hmade
    | none =>
      cases statement with
      | config => exact hplain (Or.inr rfl)
      | kafkaConfig => exact hplain (Or.inr rfl)
      | forbiddenWords => exact hplain (Or.inr rfl)
      | kafkaCallback =>
        rcases hplain (Or.inr rfl) with ⟨hcounted, hscope, hbelow, hthread⟩
        exact ⟨hcounted, hscope, hbelow, hthread⟩
      | startConsumer => exact owned_startConsumer hs hcontrol hpc h
      | _ => simp [made] at hmade

theorem owned_publish {ok : Bool} (hs : Owned s) (hcontrol : Control s) (hpc : s.main.pc = .publish)
    (h : s.advance ok = some s') : Owned { s' with counts := copy .server s'.counts } := by
  have hscope := hs.scope (by simp [hpc, hasReturned])
  have hunset := hcontrol.published (by simp [hpc, unpublished])
  rw [hpc] at hscope
  rcases advance_eq_some.1 h with ⟨main, hmain, rfl⟩
  simp only [Server.main, hpc, Option.some.injEq] at hmain
  subst hmain
  refine ⟨?_, fun _ => hscope, hs.below, ?_⟩
  · have hlive : 0 < s.counts .server := by
      refine hs.counted.live_of_holder (List.mem_append_left _ ?_)
      rw [hscope.1]
      simp [scopeAt]
    -- `global_server_ptr` is the new holder
    refine (hs.counted.copy hlive).perm ?_
    rw [List.perm_iff_count]
    intro o
    simp only [State.holders, globals, hunset, hscope.2.2, List.count_cons, List.count_append]
    simp [List.count_cons]
    omega
  · intro hthread hterminated
    rcases hs.thread hthread hterminated with hlive | hjoining
    · left
      show 0 < copy .server s.counts .kafkaClient
      exact copy_pos hlive
    · exact Or.inr hjoining

/-- Dropping a reference to the client leaves one, unless it was the last. -/
theorem client_drop {o : Object} {counts : Object → Nat} (hlive : 0 < counts .kafkaClient)
    (h : ¬ (o = .kafkaClient ∧ counts o = 1)) : 0 < (drop members o counts).2 .kafkaClient := by
  by_cases ho : o = .kafkaClient
  · subst ho
    rw [drop_self]
    have hne : counts .kafkaClient ≠ 1 := fun hone => h ⟨rfl, hone⟩
    omega
  · rw [drop_of_ne (Ne.symm ho)]
    exact hlive

theorem release_counts (s : State) (o : Object) (rest : List Object) :
    (s.release o rest).counts = (drop members o s.counts).2 := by
  unfold State.release
  split <;> simp

theorem release_holders (s : State) (o : Object) (rest : List Object) :
    (s.release o rest).holders =
      s.locals ++ (((drop members o s.counts).1 ++ rest) ++ (globals s ++ workerHolds s.worker)) := by
  unfold State.release
  split
  · show (State.stopConsumer _).holders = _
    rw [stopConsumer_holders]
    rfl
  · rfl

theorem release_frame (s : State) (o : Object) (rest : List Object) :
    (s.release o rest).main = s.main ∧ (s.release o rest).worker = s.worker ∧
      (s.release o rest).terminated = s.terminated := by
  unfold State.release
  split <;> simp

theorem leave_frame (s : State) : s.leave.main = s.main ∧ s.leave.worker = s.worker ∧
    s.leave.terminated = s.terminated := by
  unfold State.leave
  split
  · exact release_frame s _ _
  · exact ⟨rfl, rfl, rfl⟩
  · split <;> exact ⟨rfl, rfl, rfl⟩

theorem owned_release {o : Object} {rest : List Object} (hs : Owned s) (hcontrol : Control s)
    (hjoining : s.joining = false) (hreturned : hasReturned s.main.pc = true)
    (hpending : s.pending = o :: rest) : Owned (s.release o rest) := by
  rcases release_frame s o rest with ⟨hmain, hworker, hterminated⟩
  refine ⟨?_, ?_, ?_, ?_⟩
  · -- the reference comes first among the holders, and gives way to those of the destructor
    have hfirst : s.holders.Perm
        (o :: (s.locals ++ (rest ++ (globals s ++ workerHolds s.worker)))) := by
      rw [State.holders, hpending]
      exact List.perm_middle
    have hdropped := (hs.counted.perm hfirst).drop
    rw [release_counts, release_holders]
    refine hdropped.perm ?_
    rw [List.perm_iff_count]
    intro x
    simp only [List.count_append]
    omega
  · rw [hmain, hreturned]
    simp
  · rw [hworker]
    exact hs.below
  · rw [hworker, hterminated]
    intro hthread hrunning
    have hactive := hcontrol.active hthread hjoining
    rcases hs.thread hthread hrunning with hlive | hwait
    · by_cases hlast : o = .kafkaClient ∧ s.counts o = 1
      -- the destructor of the client joins the thread
      · right
        unfold State.release
        rw [if_pos hlast]
        simp [State.stopConsumer, hactive]
      · left
        rw [release_counts]
        exact client_drop hlive hlast
    · rw [hjoining] at hwait
      exact absurd hwait Bool.false_ne_true

theorem owned_leave (hs : Owned s) (hcontrol : Control s) (hjoining : s.joining = false)
    (hreturned : hasReturned s.main.pc = true) : Owned s.leave := by
  have hnot : ∀ t : State, t.main = s.main → hasReturned t.main.pc = false →
      t.locals = scopeAt t.main.pc ∧ t.pending = [] ∧ t.exiting = false := by
    intro t hmain hbefore
    rw [hmain, hreturned] at hbefore
    exact absurd hbefore.symm Bool.false_ne_true
  unfold State.leave
  split
  · rename_i o rest hpending
    exact owned_release hs hcontrol hjoining hreturned hpending
  · -- a local hands its reference over to be released
    rename_i o rest hpending hlocals
    refine ⟨?_, hnot _ rfl, hs.below, hs.thread⟩
    refine hs.counted.perm ?_
    rw [List.perm_iff_count]
    intro x
    simp only [State.holders, hpending, hlocals, List.count_append, List.count_cons, List.count_nil]
    show _ = _ + (_ + (List.count x (globals s) + _))
    omega
  · rename_i hpending hlocals
    split
    · exact ⟨hs.counted, hnot _ rfl, hs.below, hs.thread⟩
    · -- so does `global_server_ptr`
      rename_i hexiting
      refine ⟨?_, hnot _ rfl, hs.below, hs.thread⟩
      refine hs.counted.perm ?_
      have hexiting' : s.exiting = false := by
        simpa using hexiting
      simp [State.holders, globals, hpending, hlocals, hexiting']

theorem owned_stopConsumer (hs : Owned s) : Owned s.stopConsumer := by
  unfold State.stopConsumer
  split
  · exact ⟨hs.counted, hs.scope, hs.below, fun _ _ => Or.inr rfl⟩
  · exact hs

theorem owned_main {ok : Bool} (hs : Owned s) (hcontrol : Control s) (h : MainStep s ok s') :
    Owned s' := by
  have hplain : ∀ t, s.advance ok = some t → s.main.pc ≠ .publish →
      (∀ statement, s.main.pc ≠ .setUp statement) → Owned t := by
    intro t ht hpublish hsetUp
    refine owned_advance hs ht ?_ ?_
    · rcases advance_eq_some.1 ht with ⟨main, hmain, rfl⟩
      unfold Server.main at hmain
      grind
    · rcases advance_eq_some.1 ht with ⟨main, hmain, rfl⟩
      unfold Server.main at hmain
      grind [hasReturned, scopeAt]
  cases h with
  | joined hjoining hworker =>
    -- the thread holds nothing when it is joined
    have hnothing : workerHolds s.worker = [] := by
      rcases hworker with hworker | hworker <;> simp [hworker, workerHolds]
    refine ⟨?_, hs.scope, by simp [workerHolds], by simp⟩
    have hcounted := hs.counted
    rw [State.holders, hnothing] at hcounted
    exact hcounted
  | setUp hjoining hpc h =>
    exact owned_setUp hs hcontrol hpc h
  | publish hjoining hpc h =>
    exact owned_publish hs hcontrol hpc h
  | stop hjoining hcalls hpc =>
    exact owned_stopConsumer hs
  | shutdown hjoining hpc h =>
    rcases hplain _ h (by simp [hpc]) (by simp [hpc]) with ⟨hcounted, hscope, hbelow, hthread⟩
    exact ⟨hcounted, hscope, hbelow, hthread⟩
  | leave hjoining hpc =>
    exact owned_leave hs hcontrol hjoining (by simp [hpc, hasReturned])
  | plain hjoining h hsetUp hpublish hshutdown hwaiting hstop =>
    exact hplain s' h hpublish hsetUp

/-- What the consumer thread changes: the counts, and what it holds itself. -/
theorem Owned.setWorker (hs : Owned s) {counts : Object → Nat} {worker : Option Worker}
    {terminated : Bool}
    (hcounted : Counted members counts
      (workerHolds worker ++ (s.locals ++ (s.pending ++ globals s))))
    (hbelow : ∀ o ∈ workerHolds worker, rank o ≤ 2)
    (hthread : terminated = false → 0 < counts .kafkaClient ∨ s.joining = true) :
    Owned { s with
      counts := counts
      worker := worker
      terminated := terminated } := by
  refine ⟨?_, hs.scope, hbelow, fun _ => hthread⟩
  refine hcounted.perm ?_
  rw [List.perm_iff_count]
  intro o
  simp only [State.holders, List.count_append]
  show _ = _ + (_ + (List.count o (globals s) + _))
  omega

theorem Owned.counted_worker (hs : Owned s) {worker : Option Worker} (hworker : s.worker = worker) :
    Counted members s.counts
      (workerHolds worker ++ (s.locals ++ (s.pending ++ globals s))) := by
  refine hs.counted.perm ?_
  rw [State.holders, hworker, List.perm_iff_count]
  intro o
  simp only [List.count_append]
  omega

theorem consumer_frame {processes : Bool} (h : consumerThread s processes = some s') :
    s'.main = s.main ∧ s.worker ≠ none := by
  unfold consumerThread at h
  grind

theorem owned_consumer {processes : Bool} (hs : Owned s) (hrunning : s.terminated = false)
    (h : consumerThread s processes = some s') : Owned s' := by
  -- a step that holds and releases nothing
  have hmove : ∀ worker next, s.worker = some worker →
      workerHolds (some next) = workerHolds (some worker) →
        Owned { s with worker := some next } := by
    intro worker next hworker hholds
    have hcounted := hs.counted_worker hworker
    have hbelow := hs.below
    rw [hworker] at hbelow
    rw [← hholds] at hcounted hbelow
    exact hs.setWorker hcounted hbelow (hs.thread (by simp [hworker]))
  unfold consumerThread at h
  split at h
  case h_1 | h_2 => cases h
  case h_3 hworker =>
    cases h
    refine hmove .test _ hworker ?_
    cases s.running_ <;> cases processes <;> rfl
  case h_4 hworker =>
    split at h
    · -- the callback holds the service from here on
      rename_i hlive
      cases h
      refine hs.setWorker ((hs.counted_worker hworker).copy hlive) (by simp [workerHolds, rank]) ?_
      intro _
      rcases hs.thread (by simp [hworker]) hrunning with hclient | hjoining
      · exact Or.inl (copy_pos hclient)
      · exact Or.inr hjoining
    · cases h
      exact hmove .lock .test hworker rfl
  case h_5 hworker =>
    cases h
    exact hmove .handleResult (.release [.service]) hworker rfl
  case h_6 hworker =>
    cases h
    exact hmove (.release []) .test hworker rfl
  case h_7 o rest hworker =>
    have hcounted := hs.counted_worker hworker
    have hbelow := hs.below
    rw [hworker] at hbelow
    cases h
    refine hs.setWorker ?_ ?_ ?_
    · show Counted members _ (((drop members o s.counts).1 ++ rest) ++ _)
      rw [List.append_assoc]
      exact hcounted.drop
    · -- a destructor goes on to what is below the object it destroys
      intro x hx
      rcases List.mem_append.1 hx with hx | hx
      · have hrank := rank_members o x (mem_of_mem_drop hx)
        have ho := hbelow o (by simp [workerHolds])
        omega
      · exact hbelow x (by simp [workerHolds, hx])
    · intro hterminated
      rcases hs.thread (by simp [hworker]) hrunning with hclient | hjoining
      · exact Or.inl (client_drop hclient (of_decide_eq_false hterminated))
      · exact Or.inr hjoining

/-- A crash leaves the locals of `main` as they are. -/
theorem Control.scope_crash (hcontrol : Control s) (hglobal : s.main.global_server_ptr = true)
    (hserver : s.main.server_ = false) :
    hasReturned s.main.pc = false ∧ scopeAt .crashed = scopeAt s.main.pc := by
  rcases hcontrol.listening hglobal with hlistening | hpc | hpc | hpc
  · rw [hserver] at hlistening
    exact absurd hlistening Bool.false_ne_true
  all_goals
    rw [hpc]
    exact ⟨rfl, rfl⟩

theorem owned_signal (hs : Owned s) (hcontrol : Control s) : Owned s.handleSignal := by
  rcases handleSignal_frame s with ⟨main, _, hs', _, hglobal, _, hpc⟩
  have hmain : Owned { s with main := main } := by
    refine hs.setMain hglobal ?_
    rcases hpc with hpc | ⟨hcrashed, hpublished, hserver⟩
    · rw [hpc]
      exact fun hbefore => ⟨hbefore, rfl⟩
    · rw [hcrashed]
      exact fun _ => hcontrol.scope_crash hpublished hserver
  rw [hs']
  exact ⟨hmain.counted, hmain.scope, hmain.below, hmain.thread⟩

end Objects

/-! ## Runs -/

structure Inv (s : State) : Prop where
  control : Control s
  owned : Owned s

theorem inv_init : Inv init :=
  ⟨control_init, owned_init⟩

theorem inv_step {s s' : State} {a : Action} (hs : Inv s) (h : step s a = some s') : Inv s' := by
  refine ⟨control_step hs.control h, ?_⟩
  rcases step_cases h with ⟨ok, rfl, hmain⟩ | ⟨rfl, rfl⟩ | ⟨processes, rfl, hconsumer⟩ |
    ⟨_, calls, rfl⟩
  · exact owned_main hs.owned hs.control hmain
  · exact owned_signal hs.owned hs.control
  · exact owned_consumer hs.owned (running_of_step h).2.1 hconsumer
  · exact ⟨hs.owned.counted, hs.owned.scope, hs.owned.below, hs.owned.thread⟩

theorem inv_run {as : List Action} {s : State} (h : run step init as = some s) : Inv s :=
  run_invariant (fun _ _ _ => inv_step) inv_init h

/-! ## The server -/

@[simp] theorem setUp_main (s : State) (statement : SetUp) (ok : Bool) :
    (s.setUp statement ok).main = s.main := by
  cases statement <;> cases ok <;> rfl

theorem MainStep.main {s s' : State} {ok : Bool} (h : MainStep s ok s') :
    s'.main = s.main ∨ Server.main s.main ok = some s'.main := by
  have hadvance : ∀ {t}, s.advance ok = some t → Server.main s.main ok = some t.main := by
    intro t ht
    rcases advance_eq_some.1 ht with ⟨main, hmain, rfl⟩
    exact hmain
  cases h with
  | joined hjoining hworker =>
    exact Or.inl rfl
  | setUp hjoining hpc h =>
    rw [setUp_main]
    exact Or.inr (hadvance h)
  | publish hjoining hpc h =>
    have hserver := hadvance h
    exact Or.inr hserver
  | stop hjoining hcalls hpc =>
    exact Or.inl (stopConsumer_main s)
  | shutdown hjoining hpc h =>
    have hserver := hadvance h
    exact Or.inr hserver
  | leave hjoining hpc =>
    exact Or.inl (leave_frame s).1
  | plain hjoining h hsetUp hpublish hshutdown hwaiting hstop =>
    exact Or.inr (hadvance h)

/-- While the server exists, a signal is what it is in the server model. -/
theorem handleSignal_main {s : State} (h : s.main.global_server_ptr = true → 0 < s.counts .server) :
    s.handleSignal.main = signalHandler s.main := by
  unfold State.handleSignal
  split
  · rename_i hgone
    have hlive := h hgone.1
    rw [hgone.2] at hlive
    exact absurd hlive (Nat.lt_irrefl 0)
  · rfl

/-- The locals of `main` exist until it returns. -/
theorem Inv.local_exists {s : State} (hs : Inv s) (hreturned : hasReturned s.main.pc = false)
    {o : Object} (ho : o ∈ scopeAt s.main.pc) : 0 < s.counts o := by
  refine hs.owned.counted.live_of_holder (List.mem_append_left _ ?_)
  rw [(hs.owned.scope hreturned).1]
  exact ho

/-- The server exists from its publication until the destructor of `global_server_ptr`. -/
theorem Inv.server_exists {s : State} (hs : Inv s) (hglobal : s.main.global_server_ptr = true)
    (hexiting : s.exiting = false) : 0 < s.counts .server := by
  refine hs.owned.counted.live_of_holder ?_
  simp [State.holders, globals, hglobal, hexiting]

/-- Until `main` returns, a step of the process is a step of the server model or does not touch it;
after that, `main` stays where it is. -/
theorem step_main {s s' : State} {a : Action} (hs : Inv s) (h : step s a = some s') :
    s'.main = s.main ∨ (∃ b, Server.step s.main b = some s'.main) ∨
      hasReturned s.main.pc = true ∧ s'.main.pc = s.main.pc := by
  rcases step_cases h with ⟨ok, rfl, hmain⟩ | ⟨rfl, rfl⟩ | ⟨processes, rfl, hconsumer⟩ |
    ⟨_, calls, rfl⟩
  · rcases hmain.main with hsame | hserver
    · exact Or.inl hsame
    · exact Or.inr (Or.inl ⟨.main ok, hserver⟩)
  · cases hreturned : hasReturned s.main.pc with
    | false =>
      have hcrashed := (running_of_step h).2.2.2
      have hended : s.main.pc.ended = false := by
        unfold hasReturned at hreturned
        unfold Pc.ended
        grind
      have hmain := handleSignal_main
        (fun hglobal => hs.server_exists hglobal (hs.owned.scope hreturned).2.2)
      refine Or.inr (Or.inl ⟨.signal, ?_⟩)
      simp [Server.step, hended, hmain]
    | true =>
      refine Or.inr (Or.inr ⟨rfl, ?_⟩)
      rcases handleSignal_frame s with ⟨main, _, hs', _, _, _, hpc | ⟨_, hpublished, hserver⟩⟩
      · rw [hs']
        exact hpc
      -- a server that was published is listening when `main` returns
      · have hbefore := (hs.control.scope_crash hpublished hserver).1
        rw [hreturned] at hbefore
        cases hbefore
  · exact Or.inl (consumer_frame hconsumer).1
  · exact Or.inl rfl

/-- What the main thread and the signals of a run do, until `main` returns, is a run of the server
model. -/
theorem run_main {as : List Action} {s : State} (h : run step init as = some s) :
    ∃ bs t, run Server.step Server.init bs = some t ∧ t.pc = s.main.pc ∧
      (hasReturned s.main.pc = false → t = s.main) := by
  refine run_history (J := fun _ s => ∃ bs t, run Server.step Server.init bs = some t ∧
    t.pc = s.main.pc ∧ (hasReturned s.main.pc = false → t = s.main)) ?_ ?_ h
  · exact ⟨[], Server.init, rfl, rfl, fun _ => rfl⟩
  · rintro as s a s' hrun ⟨bs, t, hbs, hpc, hsame⟩ hstep
    rcases step_main (inv_run hrun) hstep with hmain | ⟨b, hb⟩ | ⟨hreturned, hmain⟩
    · rw [hmain]
      exact ⟨bs, t, hbs, hpc, hsame⟩
    · have hbefore : hasReturned s.main.pc = false := by
        cases hreturned : hasReturned s.main.pc with
        | false => rfl
        | true =>
          -- the server model takes no step once `main` has returned
          unfold hasReturned at hreturned
          unfold Server.step Server.main Pc.ended at hb
          grind
      have hconcat : run Server.step Server.init (bs ++ [b]) = some s'.main :=
        run_concat_eq_some.2 ⟨s.main, hsame hbefore ▸ hbs, hb⟩
      exact ⟨bs ++ [b], s'.main, hconcat, rfl, fun _ => rfl⟩
    · refine ⟨bs, t, hbs, hpc.trans hmain.symm, ?_⟩
      rw [hmain, hreturned]
      simp

end Process
end ModerationService
