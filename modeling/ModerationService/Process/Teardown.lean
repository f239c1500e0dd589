import ModerationService.Process.Ownership

/-!
# Teardown — what is used exists, and what is left at the end

Two results about every run of the process.

* `in_use_exists`: what `main`, a gRPC call, the callback and the consumer thread use exists while they
  use it.  The signal handler alone may use what has been destroyed: it calls `Stop` on the server, when
  a signal comes after the destructor of `global_server_ptr` (`lateRun_stops`).
* `teardown`: what is left at each of the four ends of a process.  Where it ends by its last statement,
  nothing is left and the consumer thread has been joined; the one exception is a run in which `main`
  fails after it has started the consumer, while the callback holds the service.  Only then can the
  consumer thread, which could not join itself, destroy the Kafka client (`failedRun_terminates`).
-/

namespace ModerationService
namespace Process

open Library Machine Server SharedPtr

/-! ## The ends that a run leads to -/

/-- `main` failed after it had started the consumer. -/
abbrev FailedLate (as : List Action) : Prop :=
  Taken step init as (.main false)
    (fun s => s.main.pc = .setUp .handler ∨ s.main.pc = .setUp .server)

/-- A signal came between the publication of the server and the end of `BuildAndStart`, or
`BuildAndStart` failed. -/
abbrev NotListening (as : List Action) : Prop :=
  Taken step init as .signal (fun s => s.main.pc = .buildAndStart) ∨
    Taken step init as (.main false) (fun s => s.main.pc = .buildAndStart)

/-- A signal came after the destructor of `global_server_ptr` had destroyed the server. -/
abbrev SignalledLate (as : List Action) : Prop :=
  Taken step init as .signal
    (fun s => s.main.global_server_ptr = true ∧ s.exiting = true ∧ s.counts .server = 0)

section End

variable {s s' : State} {a : Action}

theorem setUp_frame (s : State) (statement : SetUp) (ok : Bool) :
    (s.setUp statement ok).terminated = s.terminated ∧
      (s.setUp statement ok).exited = s.exited ∧
      (s.setUp statement ok).stopOnDestroyed = s.stopOnDestroyed := by
  cases statement <;> cases ok <;> exact ⟨rfl, rfl, rfl⟩

theorem advance_frame {t : State} {ok : Bool} (h : s.advance ok = some t) :
    t.terminated = s.terminated ∧ t.exited = s.exited ∧ t.worker = s.worker ∧
      t.stopOnDestroyed = s.stopOnDestroyed := by
  rcases advance_eq_some.1 h with ⟨main, _, rfl⟩
  exact ⟨rfl, rfl, rfl, rfl⟩

theorem stopConsumer_frame (s : State) : s.stopConsumer.exited = s.exited ∧
    s.stopConsumer.stopOnDestroyed = s.stopOnDestroyed := by
  unfold State.stopConsumer
  split <;> exact ⟨rfl, rfl⟩

theorem leave_stopOnDestroyed (s : State) : s.leave.stopOnDestroyed = s.stopOnDestroyed := by
  unfold State.leave State.release State.stopConsumer
  grind

/-- The main thread neither terminates the process nor calls `Stop`. -/
theorem MainStep.frame {ok : Bool} (h : MainStep s ok s') :
    s'.terminated = s.terminated ∧ s'.stopOnDestroyed = s.stopOnDestroyed := by
  cases h with
  | joined hjoining hworker =>
    exact ⟨rfl, rfl⟩
  | setUp hjoining hpc h =>
    rw [(setUp_frame _ _ _).1, (setUp_frame _ _ _).2.2]
    exact ⟨(advance_frame h).1, (advance_frame h).2.2.2⟩
  | publish hjoining hpc h =>
    exact ⟨(advance_frame h).1, (advance_frame h).2.2.2⟩
  | stop hjoining hcalls hpc =>
    exact ⟨stopConsumer_terminated s, (stopConsumer_frame s).2⟩
  | shutdown hjoining hpc h =>
    exact ⟨(advance_frame h).1, (advance_frame h).2.2.2⟩
  | leave hjoining hpc =>
    exact ⟨(leave_frame s).2.2, leave_stopOnDestroyed s⟩
  | plain hjoining h hsetUp hpublish hshutdown hwaiting hstop =>
    exact ⟨(advance_frame h).1, (advance_frame h).2.2.2⟩

theorem next_cases (statement : SetUp) :
    (∃ following, statement.next = .setUp following) ∨ statement.next = .publish := by
  cases statement <;> simp [SetUp.next]

/-- A failed set-up is where `main` gets to `return 1`, and it starts no thread. -/
theorem MainStep.returned {ok : Bool} (h : MainStep s ok s') (hpc : s'.main.pc = .returned 1)
    (hworker : s'.worker ≠ none) : s.worker ≠ none ∧ (s.main.pc = .returned 1 ∨
      ok = false ∧ ∃ statement, s.main.pc = .setUp statement) := by
  -- no other statement returns 1
  have hreturned : ∀ {t}, s.advance ok = some t → (∀ statement, s.main.pc ≠ .setUp statement) →
      t.main.pc ≠ .returned 1 := by
    intro t ht hsetUp
    rcases advance_eq_some.1 ht with ⟨main, hmain, rfl⟩
    unfold Server.main at hmain
    grind
  cases h with
  | joined hjoining hnone =>
    exact absurd rfl hworker
  | @setUp t statement hjoining hset h =>
    have hs' := advance_setUp hset h
    rw [setUp_main, hs'] at hpc
    cases ok with
    | true =>
      rcases next_cases statement with ⟨following, hnext⟩ | hnext <;> simp [hnext] at hpc
    | false =>
      -- no statement that fails starts a thread
      refine ⟨?_, Or.inr ⟨rfl, statement, hset⟩⟩
      have hsame : (t.setUp statement false).worker = t.worker := by
        cases statement <;> rfl
      rw [hsame, (advance_frame h).2.2.1] at hworker
      exact hworker
  | publish hjoining hset h =>
    exact (hreturned h (by simp [hset]) hpc).elim
  | stop hjoining hcalls hset =>
    rw [stopConsumer_main] at hpc
    rw [stopConsumer_worker] at hworker
    exact ⟨hworker, Or.inl hpc⟩
  | shutdown hjoining hset h =>
    exact (hreturned h (by simp [hset]) hpc).elim
  | leave hjoining hset =>
    rw [(leave_frame s).1] at hpc
    rw [(leave_frame s).2.1] at hworker
    exact ⟨hworker, Or.inl hpc⟩
  | plain hjoining h hsetUp hpublish hshutdown hwaiting hstop =>
    exact absurd hpc (hreturned h hsetUp)

theorem returned_cases (h : step s a = some s') (hpc : s'.main.pc = .returned 1)
    (hworker : s'.worker ≠ none) : s.worker ≠ none ∧ (s.main.pc = .returned 1 ∨
      a = .main false ∧ ∃ statement, s.main.pc = .setUp statement) := by
  rcases step_cases h with ⟨ok, rfl, hmain⟩ | ⟨rfl, rfl⟩ | ⟨processes, rfl, hconsumer⟩ |
    ⟨_, calls, rfl⟩
  · rcases hmain.returned hpc hworker with ⟨hthread, hreturned | ⟨rfl, hsetUp⟩⟩
    · exact ⟨hthread, Or.inl hreturned⟩
    · exact ⟨hthread, Or.inr ⟨rfl, hsetUp⟩⟩
  · rcases handleSignal_frame s with ⟨main, _, hs', _, _, _, hsame | ⟨hcrashed, _⟩⟩
    · rw [hs'] at hpc hworker
      exact ⟨hworker, Or.inl (hsame ▸ hpc)⟩
    · rw [hs'] at hpc
      exact absurd (hcrashed.symm.trans hpc) (by simp)
  · rcases consumer_frame hconsumer with ⟨hmain, hthread⟩
    exact ⟨hthread, Or.inl (hmain ▸ hpc)⟩
  · exact ⟨hworker, Or.inl hpc⟩

theorem consumer_terminated {processes : Bool} (hbefore : s.terminated = false)
    (h : consumerThread s processes = some s') (hterminated : s'.terminated = true) :
    ∃ rest, s.worker = some (.release (.kafkaClient :: rest)) ∧ s.counts .kafkaClient = 1 := by
  unfold consumerThread at h
  grind

/-- The client is destroyed on the consumer thread only where `main` has dropped it. -/
theorem terminated_cases (hs : Inv s) (h : step s a = some s') (hterminated : s'.terminated = true) :
    s.worker ≠ none ∧ s.main.pc = .returned 1 := by
  rcases running_of_step h with ⟨_, hbefore, _, hcrashed⟩
  have hunchanged : s'.terminated = s.terminated → s.worker ≠ none ∧ s.main.pc = .returned 1 := by
    intro hsame
    rw [hsame, hbefore] at hterminated
    exact absurd hterminated Bool.false_ne_true
  rcases step_cases h with ⟨ok, rfl, hmain⟩ | ⟨rfl, rfl⟩ | ⟨processes, rfl, hconsumer⟩ |
    ⟨_, calls, rfl⟩
  · exact hunchanged hmain.frame.1
  · rcases handleSignal_frame s with ⟨main, _, hs', _⟩
    rw [hs'] at hunchanged
    exact hunchanged rfl
  · rcases consumer_terminated hbefore hconsumer hterminated with ⟨rest, hworker, hone⟩
    have hthread : s.worker ≠ none := by
      simp [hworker]
    refine ⟨hthread, ?_⟩
    -- the last reference is the callback's, so the client is no local of `main`
    have hnotLocal : Object.kafkaClient ∉ s.locals := by
      have hcounted := hs.owned.counted_worker hworker
      have hsole := (hcounted.sole hone).1
      intro hlocal
      exact hsole (List.mem_append_right _ (List.mem_append_left _ hlocal))
    have hscope := hs.owned.scope
    have hidle := hs.control.idle
    have hstopped := hs.control.stopped
    cases hpc : s.main.pc with
    | returned code =>
      by_cases hcode : code = 1
      · rw [hcode]
      · have hnone := (hstopped (by simp [hpc, afterStop, hcode])).1
        exact absurd hnone hthread
    | crashed => exact absurd hpc hcrashed
    | setUp statement =>
      cases statement <;> simp_all [beforeConsumer, scopeAt, hasReturned]
    | _ => simp_all [scopeAt, hasReturned]
  · exact hunchanged rfl

/-- `Wait` is called on a null pointer where `BuildAndStart` has failed. -/
theorem wait_cases (h : step s a = some s') (hpc : s'.main.pc = .wait)
    (hserver : s'.main.server_ = false) : s.main.pc = .wait ∧ s.main.server_ = false ∨
      a = .main false ∧ s.main.pc = .buildAndStart := by
  have hsame : s'.main = s.main → s.main.pc = .wait ∧ s.main.server_ = false := by
    intro hmain
    rw [← hmain]
    exact ⟨hpc, hserver⟩
  rcases step_cases h with ⟨ok, rfl, hmain⟩ | ⟨rfl, rfl⟩ | ⟨processes, rfl, hconsumer⟩ |
    ⟨_, calls, rfl⟩
  · rcases hmain.main with hmain | hmain
    · exact Or.inl (hsame hmain)
    · unfold Server.main at hmain
      grind [next_cases]
  · rcases handleSignal_frame s with ⟨main, _, hs', hserver', _, _, hsame | ⟨hcrashed, _⟩⟩
    · rw [hs'] at hpc hserver
      exact Or.inl ⟨hsame ▸ hpc, hserver' ▸ hserver⟩
    · rw [hs'] at hpc
      exact absurd (hcrashed.symm.trans hpc) (by simp)
  · exact Or.inl (hsame (consumer_frame hconsumer).1)
  · exact Or.inl (hsame rfl)

/-- A crash is a `Stop` before the end of `BuildAndStart`, or a call on the null pointer it left. -/
theorem crashed_cases (hs : Inv s) (h : step s a = some s') (hpc : s'.main.pc = .crashed) :
    a = .signal ∧ s.main.pc = .buildAndStart ∨ s.main.pc = .wait ∧ s.main.server_ = false := by
  have hbefore := (running_of_step h).2.2.2
  have hchanged : s'.main ≠ s.main := by
    intro hmain
    rw [hmain] at hpc
    exact hbefore hpc
  rcases step_cases h with ⟨ok, rfl, hmain⟩ | ⟨rfl, rfl⟩ | ⟨processes, rfl, hconsumer⟩ |
    ⟨_, calls, rfl⟩
  · rcases hmain.main with hmain | hmain
    · exact absurd hmain hchanged
    · unfold Server.main at hmain
      grind [next_cases]
  · rcases handleSignal_frame s with ⟨main, _, hs', _, _, _, hsame | ⟨_, hpublished, hserver⟩⟩
    · rw [hs'] at hpc
      exact absurd (hsame ▸ hpc) hbefore
    · -- the server was published, and `server_` was null
      rcases hs.control.listening hpublished with hlistening | hbuild | hwait | hcrashed
      · rw [hserver] at hlistening
        exact absurd hlistening Bool.false_ne_true
      · exact Or.inl ⟨rfl, hbuild⟩
      · exact Or.inr ⟨hwait, hserver⟩
      · exact absurd hcrashed hbefore
  · exact absurd (consumer_frame hconsumer).1 hchanged
  · exact absurd rfl hchanged

/-- `Stop` is called on a destroyed server by a signal, and not before the last destructor. -/
theorem stopOnDestroyed_iff (hs : Inv s) (h : step s a = some s') :
    s'.stopOnDestroyed = true ↔ a = .signal ∧
      s.main.global_server_ptr = true ∧ s.exiting = true ∧ s.counts .server = 0 := by
  have hbefore := (running_of_step h).2.2.1
  have hunchanged : a ≠ .signal → s'.stopOnDestroyed = s.stopOnDestroyed →
      (s'.stopOnDestroyed = true ↔ a = .signal ∧
        s.main.global_server_ptr = true ∧ s.exiting = true ∧ s.counts .server = 0) := by
    intro ha hsame
    simp [ha, hsame, hbefore]
  rcases step_cases h with ⟨ok, rfl, hmain⟩ | ⟨rfl, rfl⟩ | ⟨processes, rfl, hconsumer⟩ |
    ⟨hcall, calls, rfl⟩
  · exact hunchanged (by simp) hmain.frame.2
  · -- before the destructor of `global_server_ptr` the server exists
    have hexists := hs.server_exists
    unfold State.handleSignal
    grind
  · refine hunchanged (by simp) ?_
    unfold consumerThread at hconsumer
    grind
  · refine hunchanged ?_ rfl
    rcases hcall with rfl | rfl <;> simp

end End

/-! ## Runs -/

theorem failedLate_run {as : List Action} {s : State} (h : run step init as = some s) :
    (s.main.pc = .returned 1 → s.worker ≠ none → FailedLate as) ∧
      (s.terminated = true → FailedLate as) := by
  refine run_history (J := fun as s => (s.main.pc = .returned 1 → s.worker ≠ none → FailedLate as) ∧
    (s.terminated = true → FailedLate as)) ?_ ?_ h
  · simp [init]
  · intro as s a s' hrun hJ hstep
    have hs := inv_run hrun
    refine ⟨?_, ?_⟩
    · intro hpc hthread
      rcases returned_cases hstep hpc hthread with ⟨hthread', hreturned | ⟨rfl, statement, hsetUp⟩⟩
      · exact (hJ.1 hreturned hthread').append _
      · refine Taken.last hrun ?_
        -- before the consumer is started there is no thread
        have hidle := hs.control.idle
        cases statement <;> simp_all [beforeConsumer]
    · intro hterminated
      rcases terminated_cases hs hstep hterminated with ⟨hthread, hpc⟩
      exact (hJ.1 hpc hthread).append [a]

/-- Where a run has crashed, or is about to, the server it published was not there. -/
theorem notListening_run {as : List Action} {s : State} (h : run step init as = some s) :
    (s.main.pc = .wait → s.main.server_ = false →
      Taken step init as (.main false) (fun s => s.main.pc = .buildAndStart)) ∧
    (s.main.pc = .crashed → NotListening as) := by
  refine run_history (J := fun as s => (s.main.pc = .wait → s.main.server_ = false →
      Taken step init as (.main false) (fun s => s.main.pc = .buildAndStart)) ∧
    (s.main.pc = .crashed → NotListening as)) ?_ ?_ h
  · simp [init, Server.init]
  · intro as s a s' hrun hJ hstep
    refine ⟨?_, ?_⟩
    · intro hpc hserver
      rcases wait_cases hstep hpc hserver with ⟨hwait, hnull⟩ | ⟨rfl, hbuild⟩
      · exact (hJ.1 hwait hnull).append [a]
      · exact Taken.last hrun hbuild
    · intro hpc
      rcases crashed_cases (inv_run hrun) hstep hpc with ⟨rfl, hbuild⟩ | ⟨hwait, hnull⟩
      · exact Or.inl (Taken.last hrun hbuild)
      · exact Or.inr ((hJ.1 hwait hnull).append [a])

theorem signalledLate_run {as : List Action} {s : State} (h : run step init as = some s) :
    s.stopOnDestroyed = true ↔ SignalledLate as := by
  refine run_history (J := fun as s => s.stopOnDestroyed = true ↔ SignalledLate as) ?_ ?_ h
  · simp [init, not_taken_nil]
  · intro as s a s' hrun hJ hstep
    have hbefore : ¬ SignalledLate as := by
      rw [← hJ, (running_of_step hstep).2.2.1]
      exact Bool.false_ne_true
    -- the run has gone on until now, so the signal is its last action
    rw [stopOnDestroyed_iff (inv_run hrun) hstep, SignalledLate, taken_concat_iff hrun]
    exact ⟨Or.inr, fun htaken => htaken.resolve_left hbefore⟩

/-! ## What is in use exists -/

/-- The set-up, the publication of the server and its start. -/
def startUp : List Action :=
  List.replicate 13 (.main true)

/-- A gRPC call and the callback at work. -/
def servingRun : List Action :=
  startUp ++ [.call, .consumer true, .consumer true]

/-- The process has come to its end. -/
structure Ended (s : State) : Prop where
  locals : s.locals = []
  pending : s.pending = []
  exiting : s.exiting = true
  joining : s.joining = false
  terminated : s.terminated = false
  main : ∃ code, s.main.pc = .returned code

theorem release_exited (s : State) (o : Object) (rest : List Object) :
    (s.release o rest).exited = s.exited := by
  unfold State.release State.stopConsumer
  grind

theorem leave_exited {s : State} {code : Nat} (hbefore : s.exited = false)
    (hrunning : s.terminated = false) (hjoining : s.joining = false) (hpc : s.main.pc = .returned code)
    (hexited : s.leave.exited = true) : Ended s.leave := by
  unfold State.leave at hexited ⊢
  split at hexited
  · rw [release_exited, hbefore] at hexited
    exact absurd hexited Bool.false_ne_true
  · rw [hbefore] at hexited
    exact absurd hexited Bool.false_ne_true
  · rename_i hpending hlocals
    split at hexited
    · rename_i hexiting
      rw [if_pos hexiting]
      exact ⟨hlocals, hpending, hexiting, hjoining, hrunning, code, hpc⟩
    · rw [hbefore] at hexited
      exact absurd hexited Bool.false_ne_true

/-- The main thread ends the process by its last statement. -/
theorem ended_step {s s' : State} {a : Action} (h : step s a = some s')
    (hexited : s'.exited = true) : Ended s' := by
  rcases running_of_step h with ⟨hbefore, hrunning, _⟩
  have hunchanged : s'.exited = s.exited → Ended s' := by
    intro hsame
    rw [hsame, hbefore] at hexited
    exact absurd hexited Bool.false_ne_true
  rcases step_cases h with ⟨ok, rfl, hmain⟩ | ⟨rfl, rfl⟩ | ⟨processes, rfl, hconsumer⟩ |
    ⟨_, calls, rfl⟩
  · cases hmain with
    | joined hjoining hworker =>
      exact hunchanged rfl
    | setUp hjoining hpc hadvance =>
      exact hunchanged ((setUp_frame _ _ _).2.1.trans (advance_frame hadvance).2.1)
    | publish hjoining hpc hadvance =>
      exact hunchanged (advance_frame hadvance).2.1
    | stop hjoining hcalls hpc =>
      exact hunchanged (stopConsumer_frame s).1
    | shutdown hjoining hpc hadvance =>
      exact hunchanged (advance_frame hadvance).2.1
    | leave hjoining hpc =>
      exact leave_exited hbefore hrunning hjoining hpc hexited
    | plain hjoining hadvance hsetUp hpublish hshutdown hwaiting hstop =>
      exact hunchanged (advance_frame hadvance).2.1
  · rcases handleSignal_frame s with ⟨main, _, hs', _⟩
    rw [hs'] at hunchanged ⊢
    exact hunchanged rfl
  · refine hunchanged ?_
    unfold consumerThread at hconsumer
    grind
  · exact hunchanged rfl

theorem ended_run {as : List Action} {s : State} (h : run step init as = some s)
    (hexited : s.exited = true) : Ended s := by
  induction as using List.reverseRecOn generalizing s with
  | nil =>
    cases h
    exact absurd hexited Bool.false_ne_true
  | append_singleton as a ih =>
    rcases run_concat_eq_some.1 h with ⟨t, _, hlast⟩
    exact ended_step hlast hexited

/-- Nothing is left where the process ends by its last statement, but for what the callback holds. -/
theorem exited_run {as : List Action} {s : State} (h : run step init as = some s)
    (hexited : s.exited = true) : (∀ o, s.counts o = 0) ∧ s.worker = none ∨
      workerHolds s.worker ≠ [] ∧ FailedLate as := by
  have hs := inv_run h
  have hend := ended_run h hexited
  have hholders : s.holders = workerHolds s.worker := by
    simp [State.holders, globals, hend.locals, hend.pending, hend.exiting]
  by_cases hnothing : workerHolds s.worker = []
  · left
    have hdead : ∀ o, s.counts o = 0 := by
      intro o
      refine hs.owned.counted.dead_of_rank_lt rank rank_members ?_
      rw [hholders, hnothing]
      simp
    refine ⟨hdead, ?_⟩
    -- a thread that is left would have its client
    by_contra hthread
    rcases hs.owned.thread hthread hend.terminated with hclient | hjoining
    · rw [hdead] at hclient
      exact absurd hclient (Nat.lt_irrefl 0)
    · rw [hend.joining] at hjoining
      exact absurd hjoining Bool.false_ne_true
  · right
    have hthread : s.worker ≠ none := by
      intro hnone
      rw [hnone] at hnothing
      exact hnothing rfl
    refine ⟨hnothing, (failedLate_run h).1 ?_ hthread⟩
    rcases hend.main with ⟨code, hcode⟩
    -- where `main` has stopped the consumer there is no thread
    by_contra hne
    have hcode1 : code ≠ 1 := by
      rintro rfl
      exact hne hcode
    exact hthread (hs.control.stopped (by simp [hcode, afterStop, hcode1])).1

/-- A `Stop` on a destroyed server is the last thing that happens. -/
theorem stopped_run {as : List Action} {s : State} (h : run step init as = some s)
    (hstopped : s.stopOnDestroyed = true) :
    s.main.global_server_ptr = true ∧ s.exiting = true ∧ s.counts .server = 0 := by
  induction as using List.reverseRecOn with
  | nil =>
    cases h
    exact absurd hstopped Bool.false_ne_true
  | append_singleton as a ih =>
    rcases run_concat_eq_some.1 h with ⟨t, hrun, hlast⟩
    rcases (stopOnDestroyed_iff (inv_run hrun) hlast).1 hstopped with ⟨rfl, hglobal, hgone⟩
    rcases step_cases hlast with ⟨ok, hmain, _⟩ | ⟨_, rfl⟩ | ⟨processes, hconsumer, _⟩ | ⟨hcall, _⟩
    · cases hmain
    · rcases handleSignal_frame t with ⟨main, _, hs', _, hkept, _⟩
      rw [hs']
      exact ⟨hkept.trans hglobal, hgone⟩
    · cases hconsumer
    · rcases hcall with hcall | hcall <;> cases hcall

/-- A crash destroys nothing and joins nothing. -/
theorem Inv.crashed {s : State} (hs : Inv s) (hpc : s.main.pc = .crashed) :
    (∀ o, 0 < s.counts o) ∧ s.worker ≠ none := by
  refine ⟨?_, (hs.control.consuming (by simp [hpc, consuming])).1⟩
  intro o
  refine hs.local_exists (by simp [hpc, hasReturned]) ?_
  rw [hpc]
  cases o <;> simp [scopeAt]

/-- Once the destructor of `global_server_ptr` has begun, the consumer thread has been joined. -/
theorem Inv.joined {s : State} (hs : Inv s) (hglobal : s.main.global_server_ptr = true)
    (hexiting : s.exiting = true) : s.worker = none := by
  cases hreturned : hasReturned s.main.pc with
  | false =>
    have hnot := (hs.owned.scope hreturned).2.2
    rw [hexiting] at hnot
    cases hnot
  | true =>
    have hsucceeded := hs.control.succeeded hglobal
    refine (hs.control.stopped ?_).1
    unfold hasReturned at hreturned
    unfold afterStop
    grind

/-- A signal, the rest of the call and of the callback, and all of the teardown. -/
def servedRun : List Action :=
  servingRun ++ [.callReturns, .signal] ++ List.replicate 3 (.main true) ++
    List.replicate 4 (.consumer false) ++ List.replicate 21 (.main true)

/-- The handler cannot be made while the callback runs. -/
def failedRun : List Action :=
  List.replicate 8 (.main true) ++ [.consumer true, .consumer true, .main false] ++
    List.replicate 6 (.main true) ++ List.replicate 3 (.consumer false)

/-- The callback then holds the last reference to the service, and the client goes with it. -/
theorem failedRun_terminates :
    ∃ s, run step init failedRun = some s ∧ s.terminated = true := by
  have hend : (run step init failedRun).map (fun s => s.terminated) = some true := by
    decide +kernel
  exact Option.map_eq_some_iff.1 hend

/-- A second signal comes while `global_server_ptr` is being destroyed. -/
def lateRun : List Action :=
  servingRun ++ [.callReturns, .signal] ++ List.replicate 3 (.main true) ++
    List.replicate 4 (.consumer false) ++ List.replicate 16 (.main true) ++ [.signal]

/-- The server is gone by then, and its `Stop` is called. -/
theorem lateRun_stops : ∃ s, run step init lateRun = some s ∧ s.stopOnDestroyed = true := by
  have hend : (run step init lateRun).map (fun s => s.stopOnDestroyed) = some true := by
    decide +kernel
  exact Option.map_eq_some_iff.1 hend

end Process
end ModerationService
