import ModerationService.Process.Teardown
import ModerationService.Server.Signals

/-!
# Shutdown — the process comes to its end

Each statement of the main thread, and each reference it releases, takes something from `rank`, and
nothing else adds to it.  So the main thread takes a bounded number of steps in every run
(`process_ends`).  Where it cannot go on it is in `Wait` or in a `join`, and the thread it joins ends
after a few steps.
-/

namespace ModerationService
namespace Process

open Library Machine Server SharedPtr

/-! ## The polling loop -/

/-- `Wait` returns after a signal only, so the flag is set when it is polled. -/
structure Requested (s : Server.State) : Prop where
  called : s.shutdownCalled = true → s.shutdown_requested = true
  poll : s.pc = .poll → s.shutdownCalled = true
  sleep : s.pc ≠ .sleep

theorem requested_run {bs : List Server.Action} {s : Server.State}
    (h : run Server.step Server.init bs = some s) : Requested s := by
  refine run_invariant ?_ ⟨?_, ?_, ?_⟩ h
  · intro s a s' hs hstep
    rcases hs with ⟨hcalled, hpoll, hsleep⟩
    cases a with
    | main ok =>
      have hmain : Server.main s ok = some s' := hstep
      unfold Server.main at hmain
      constructor <;> grind [next_cases]
    | signal =>
      have hsignal := step_signal hstep
      unfold signalHandler stop at hsignal
      constructor <;> grind
  · simp [Server.init]
  · simp [Server.init]
  · simp [Server.init]

/-! ## The main thread -/

/-- No more than this is left of the main thread's own statements; a statement that makes an object
also pays for releasing it. -/
def pcRank : Pc → Nat
  | .setUp .config => 34
  | .setUp .kafkaConfig => 33
  | .setUp .forbiddenWords => 32
  | .setUp .repository => 31
  | .setUp .kafkaClient => 28
  | .setUp .service => 25
  | .setUp .kafkaCallback => 20
  | .setUp .startConsumer => 19
  | .setUp .handler => 16
  | .setUp .server => 12
  | .publish => 8
  | .buildAndStart => 7
  | .wait => 6
  | .waiting => 5
  | .sleep => 5
  | .poll => 4
  | .stopConsumer => 3
  | .flush => 2
  | .shutdown => 1
  | .returned _ => 0
  | .crashed => 0

/-- What is left of `StopConsumer`. -/
def joinRank (s : State) : Nat :=
  (if s.running_ then 2 else 0) + (if s.joining then 1 else 0)

/-- What is left to release. -/
def releaseRank (s : State) : Nat :=
  2 * s.locals.length + s.pending.length + weight members s.counts +
    (if s.exiting then 0 else 2) + (if s.exited then 0 else 1)

def stepRank (s : State) : Nat :=
  pcRank s.main.pc + joinRank s + releaseRank s

section Main

variable {s s' : State} {ok : Bool}

theorem pcRank_made {statement : SetUp} {o : Object} (ho : made statement = some o) :
    pcRank statement.next + 3 + (members o).length ≤ pcRank (.setUp statement) := by
  cases statement <;> simp only [made, Option.some.injEq, reduceCtorEq] at ho <;> subst ho <;>
    decide

/-- What `StartConsumer` leaves to do for `StopConsumer`. -/
def starts (statement : SetUp) : Nat :=
  if statement = .startConsumer then 2 else 0

theorem pcRank_next (statement : SetUp) (ok : Bool) :
    pcRank (if ok then statement.next else .returned 1) + starts statement + 1 ≤
      pcRank (.setUp statement) := by
  cases statement <;> cases ok <;> decide

theorem joinRank_setUp (s : State) (statement : SetUp) (ok : Bool) :
    joinRank (s.setUp statement ok) ≤ joinRank s + starts statement := by
  cases statement <;> cases ok
  case startConsumer.true | startConsumer.false =>
    show 2 + (if s.joining then 1 else 0) ≤ joinRank s + 2
    rw [joinRank]
    omega
  all_goals exact Nat.le_refl _

/-- A statement that makes no object. -/
theorem releaseRank_setUp {statement : SetUp} (h : ok = true → made statement = none) :
    releaseRank (s.setUp statement ok) = releaseRank s := by
  cases ok with
  | false =>
    cases statement <;> rfl
  | true =>
    have hnone := h rfl
    cases statement <;> simp only [made, reduceCtorEq] at hnone <;> rfl

theorem rank_setUp {statement : SetUp} (hs : Inv s) (hpc : s.main.pc = .setUp statement)
    (h : s.advance ok = some s') : stepRank (s'.setUp statement ok) + 1 ≤ stepRank s := by
  -- what the statement takes from its own rank pays for the consumer that it may start
  have hstays : (ok = true → made statement = none) →
      stepRank (s'.setUp statement ok) + 1 ≤ stepRank s := by
    intro hnone
    have hs' := advance_setUp hpc h
    have hpc' : s'.main.pc = if ok then statement.next else .returned 1 := by
      rw [hs']
    have hjoin : joinRank s' = joinRank s := by
      rw [hs']
      rfl
    have hrelease : releaseRank s' = releaseRank s := by
      rw [hs']
      rfl
    have hleft := joinRank_setUp s' statement ok
    have hnext := pcRank_next statement ok
    rw [stepRank, stepRank, releaseRank_setUp hnone, setUp_main, hpc', hpc]
    omega
  cases ok with
  | false =>
    exact hstays (by simp)
  | true =>
    cases hmade : made statement with
    | none =>
      exact hstays (fun _ => hmade)
    | some o =>
      -- and here for the new local and for the references of the new object
      rcases hs.owned.ready hs.control hpc hmade with ⟨hnew, hlive⟩
      have hweight := weight_make hnew hlive
      have hnext := pcRank_made hmade
      rw [advance_setUp hpc h, setUp_made hmade]
      simp only [stepRank, joinRank, releaseRank, State.makeShared, hpc, hweight, List.length_cons,
        if_true]
      omega

/-- A statement that does nothing to the objects. -/
theorem rank_advance (hsetUp : ∀ statement, s.main.pc ≠ .setUp statement)
    (hpoll : s.main.pc = .poll → s.main.shutdown_requested = true) (hsleep : s.main.pc ≠ .sleep)
    (h : s.advance ok = some s') :
    pcRank s'.main.pc + 1 ≤ pcRank s.main.pc ∧ joinRank s' = joinRank s ∧
      releaseRank s' = releaseRank s := by
  rcases advance_eq_some.1 h with ⟨main, hmain, rfl⟩
  refine ⟨?_, rfl, rfl⟩
  unfold Server.main at hmain
  grind [pcRank]

theorem rank_stopConsumer (hcalls : s.initialized_ = true ∧ s.running_ = true)
    (hjoining : s.joining = false) :
    stepRank s.stopConsumer + 1 ≤ stepRank s := by
  simp only [State.stopConsumer, stepRank, joinRank, releaseRank, hcalls, hjoining, Bool.and_self,
    Bool.false_eq_true, if_true, if_false]
  omega

theorem joinRank_release (s : State) (o : Object) (rest : List Object) (hjoining : s.joining = false) :
    joinRank (s.release o rest) ≤ joinRank s := by
  unfold State.release State.stopConsumer
  split
  · show joinRank (if s.initialized_ && s.running_ then _ else _) ≤ _
    split
    · simp_all [joinRank]
    · exact Nat.le_refl _
  · exact Nat.le_refl _

theorem release_queue (s : State) (o : Object) (rest : List Object) :
    (s.release o rest).locals = s.locals ∧
      (s.release o rest).pending = (drop members o s.counts).1 ++ rest ∧
      (s.release o rest).exiting = s.exiting ∧ (s.release o rest).exited = s.exited := by
  unfold State.release State.stopConsumer
  split
  · cases s.initialized_ <;> cases s.running_ <;> exact ⟨rfl, rfl, rfl, rfl⟩
  · exact ⟨rfl, rfl, rfl, rfl⟩

theorem rank_release {o : Object} {rest : List Object} (hs : Inv s) (hpending : s.pending = o :: rest)
    (hjoining : s.joining = false) : stepRank (s.release o rest) + 1 ≤ stepRank s := by
  have ho : 0 < s.counts o := by
    refine hs.owned.counted.live_of_holder ?_
    simp [State.holders, hpending]
  -- what the destructor goes on to release was in the weight before
  have hweight : (drop members o s.counts).1.length + weight members (drop members o s.counts).2 =
      weight members s.counts := weight_drop ho
  have hjoin := joinRank_release s o rest hjoining
  rcases release_queue s o rest with ⟨hlocals, hpending', hexiting, hexited⟩
  simp only [stepRank, releaseRank, (release_frame s o rest).1, release_counts, hlocals, hpending',
    hexiting, hexited, hpending, List.length_append, List.length_cons]
  omega

theorem rank_leave (hs : Inv s) (hexited : s.exited = false) (hjoining : s.joining = false) :
    stepRank s.leave + 1 ≤ stepRank s := by
  unfold State.leave
  split
  · rename_i o rest hpending
    exact rank_release hs hpending hjoining
  · -- a local counts twice, for leaving the scope and for being released
    rename_i o rest hpending hlocals
    simp only [stepRank, joinRank, releaseRank, hpending, hlocals, List.length_cons, List.length_nil]
    omega
  · rename_i hpending hlocals
    split
    · simp only [stepRank, joinRank, releaseRank, hexited, if_true, Bool.false_eq_true, if_false]
      omega
    · rename_i hexiting
      have hpending' : (if s.main.global_server_ptr then [Object.server] else []).length ≤ 1 := by
        cases s.main.global_server_ptr <;> simp
      simp only [stepRank, joinRank, releaseRank, hpending, hlocals, hexiting, List.length_nil,
        Bool.false_eq_true, if_true, if_false]
      omega

theorem rank_main (hs : Inv s) (hrequested : hasReturned s.main.pc = false → Requested s.main)
    (hexited : s.exited = false) (h : MainStep s ok s') : stepRank s' + 1 ≤ stepRank s := by
  have hpoll : s.main.pc = .poll → s.main.shutdown_requested = true := by
    intro hpc
    have hbefore := hrequested (by simp [hpc, hasReturned])
    exact hbefore.called (hbefore.poll hpc)
  have hsleep : s.main.pc ≠ .sleep := by
    intro hpc
    exact (hrequested (by simp [hpc, hasReturned])).sleep hpc
  have hplain : ∀ t, s.advance ok = some t → (∀ statement, s.main.pc ≠ .setUp statement) →
      stepRank t + 1 ≤ stepRank s := by
    intro t ht hsetUp
    rcases rank_advance hsetUp hpoll hsleep ht with ⟨hpc, hjoin, hrelease⟩
    simp only [stepRank, hjoin, hrelease]
    omega
  cases h with
  | joined hjoining hworker =>
    simp only [stepRank, joinRank, releaseRank, hjoining, Bool.false_eq_true, if_true, if_false]
    omega
  | setUp hjoining hpc h =>
    exact rank_setUp hs hpc h
  | publish hjoining hpc h =>
    have hless := hplain _ h (by simp [hpc])
    -- one reference more to an object that exists, which `exiting` pays for
    have hserver : 0 < s.counts .server :=
      hs.local_exists (by simp [hpc, hasReturned]) (by simp [hpc, scopeAt])
    rcases advance_eq_some.1 h with ⟨main, _, rfl⟩
    have hweight : weight members (copy .server s.counts) = weight members s.counts :=
      weight_copy hserver
    simp only [stepRank, joinRank, releaseRank, hweight] at hless ⊢
    exact hless
  | stop hjoining hcalls hpc =>
    exact rank_stopConsumer hcalls hjoining
  | shutdown hjoining hpc h =>
    have hless := hplain _ h (by simp [hpc])
    exact hless
  | leave hjoining hpc =>
    exact rank_leave hs hexited hjoining
  | plain hjoining h hsetUp hpublish hshutdown hwaiting hstop =>
    exact hplain s' h hsetUp

end Main

/-! ## The other steps -/

def Action.isMain : Action → Bool
  | .main _ => true
  | _ => false

def Action.isConsumer : Action → Bool
  | .consumer _ => true
  | _ => false

section Others

variable {s s' : State}

theorem consumer_queue {processes : Bool} (h : consumerThread s processes = some s') :
    s'.locals = s.locals ∧ s'.pending = s.pending ∧ s'.exiting = s.exiting ∧
      s'.exited = s.exited ∧ s'.running_ = s.running_ ∧ s'.joining = s.joining := by
  unfold consumerThread at h
  grind

/-- The consumer thread makes no object and takes some away. -/
theorem weight_consumer {processes : Bool} (hs : Inv s) (h : consumerThread s processes = some s') :
    weight members s'.counts ≤ weight members s.counts := by
  unfold consumerThread at h
  split at h
  case h_1 | h_2 => cases h
  case h_4 =>
    split at h
    · rename_i hlive
      cases h
      exact Nat.le_of_eq (weight_copy hlive)
    · cases h
      exact Nat.le_refl _
  case h_7 o rest hworker =>
    have ho : 0 < s.counts o := by
      refine hs.owned.counted.live_of_holder ?_
      simp [State.holders, hworker, workerHolds]
    have hdrop : (drop members o s.counts).1.length +
        weight members (drop members o s.counts).2 = weight members s.counts := weight_drop ho
    cases h
    show weight members (drop members o s.counts).2 ≤ _
    omega
  all_goals
    cases h
    exact Nat.le_refl _

theorem rank_consumer {processes : Bool} (hs : Inv s) (h : consumerThread s processes = some s') :
    stepRank s' ≤ stepRank s := by
  have hweight := weight_consumer hs h
  rcases consumer_queue h with ⟨hlocals, hpending, hexiting, hexited, hrunning, hjoining⟩
  simp only [stepRank, joinRank, releaseRank, (consumer_frame h).1, hlocals, hpending, hexiting,
    hexited, hrunning, hjoining]
  omega

theorem rank_signal (s : State) : stepRank s.handleSignal ≤ stepRank s := by
  rcases handleSignal_frame s with ⟨main, _, hs', _, _, _, hpc | ⟨hpc, _⟩⟩ <;> rw [hs']
  · simp only [stepRank, joinRank, releaseRank, hpc]
    exact Nat.le_refl _
  · simp only [stepRank, joinRank, releaseRank, hpc, pcRank]
    omega

end Others

/-- The main thread takes a bounded number of steps in every run. -/
theorem mains_le {as : List Action} {s : State} (h : run step init as = some s) :
    as.countP Action.isMain + stepRank s ≤ 37 := by
  have hinit : stepRank init = 37 := by
    decide
  rw [← hinit]
  -- the invariants are those of reachable states
  refine run_countP_le (I := fun s => ∃ as, run step init as = some s) stepRank Action.isMain
    (fun s a s' (_ : True) hreached hstep => ?_) ⟨[], rfl⟩ (fun _ _ => trivial) h
  rcases hreached with ⟨as, hrun⟩
  have hs := inv_run hrun
  refine ⟨⟨as ++ [a], run_concat_eq_some.2 ⟨s, hrun, hstep⟩⟩, ?_⟩
  rcases step_cases hstep with ⟨ok, rfl, hmain⟩ | ⟨rfl, rfl⟩ | ⟨processes, rfl, hconsumer⟩ |
    ⟨hcall, calls, rfl⟩
  · rcases run_main hrun with ⟨bs, t, hbs, _, hsame⟩
    have hrank := rank_main hs (fun hbefore => hsame hbefore ▸ requested_run hbs)
      (running_of_step hstep).1 hmain
    simp only [Action.isMain, if_true]
    omega
  · simpa [Action.isMain] using rank_signal s
  · simpa [Action.isMain] using rank_consumer hs hconsumer
  · rcases hcall with rfl | rfl <;> simp [Action.isMain, stepRank, joinRank, releaseRank]

/-! ## The thread that is joined -/

/-- What the callback has still to release: its reference to the service, or the members of the
service after that. -/
def Releases (s : State) : Prop :=
  ∀ pending, s.worker = some (.release pending) →
    pending ∈ [[], [.service], [.kafkaClient, .repository], [.repository]]

section Joined

variable {s s' : State}

/-- The main thread starts the consumer thread and joins it. -/
theorem MainStep.worker {ok : Bool} (h : MainStep s ok s') :
    s'.worker = s.worker ∨ s'.worker = none ∨ s'.worker = some .test := by
  cases h with
  | joined hjoining hworker =>
    exact Or.inr (Or.inl rfl)
  | @setUp t statement hjoining hpc h =>
    rw [← (advance_frame h).2.2.1]
    cases statement <;> cases ok <;> simp [State.setUp, State.makeShared]
  | publish hjoining hpc h =>
    exact Or.inl (advance_frame h).2.2.1
  | stop hjoining hcalls hpc =>
    exact Or.inl (stopConsumer_worker s)
  | shutdown hjoining hpc h =>
    exact Or.inl (advance_frame h).2.2.1
  | leave hjoining hpc =>
    exact Or.inl (leave_frame s).2.1
  | plain hjoining h hsetUp hpublish hshutdown hwaiting hstop =>
    exact Or.inl (advance_frame h).2.2.1

theorem releases_main {ok : Bool} (hs : Releases s) (h : MainStep s ok s') : Releases s' := by
  intro pending hpending
  rcases h.worker with hsame | hnone | htest
  · rw [hsame] at hpending
    exact hs pending hpending
  · rw [hnone] at hpending
    cases hpending
  · rw [htest] at hpending
    cases hpending

theorem releases_consumer {processes : Bool} (hs : Releases s)
    (h : consumerThread s processes = some s') : Releases s' := by
  intro pending hpending
  unfold consumerThread at h
  split at h
  case h_1 | h_2 => cases h
  case h_3 =>
    cases h
    revert hpending
    cases s.running_ <;> cases processes <;> simp
  case h_4 =>
    split at h <;> cases h <;> cases hpending
  case h_5 =>
    cases h
    cases hpending
    simp
  case h_6 =>
    cases h
    cases hpending
  case h_7 o rest hworker =>
    have hbefore := hs _ hworker
    cases h
    cases hpending
    unfold drop
    -- after the service come its members, and they have none
    simp only [List.mem_cons, List.cons.injEq, reduceCtorEq, List.not_mem_nil, or_false,
      false_or] at hbefore
    rcases hbefore with ⟨rfl, rfl⟩ | ⟨rfl, rfl⟩ | ⟨rfl, rfl⟩ <;> split <;> simp [members]

end Joined

theorem releases_run {as : List Action} {s : State} (h : run step init as = some s) :
    Releases s := by
  refine run_invariant (fun s a s' hs hstep => ?_) ?_ h
  · rcases step_cases hstep with ⟨ok, rfl, hmain⟩ | ⟨rfl, rfl⟩ | ⟨processes, rfl, hconsumer⟩ |
      ⟨_, calls, rfl⟩
    · exact releases_main hs hmain
    · rcases handleSignal_frame s with ⟨main, _, hs', _⟩
      rw [hs']
      exact hs
    · exact releases_consumer hs hconsumer
    · exact hs
  · intro pending hpending
    cases hpending

/-- What is left of the consumer thread once it has been told to stop. -/
def workerRank (s : State) : Nat :=
  match s.worker with
  | some .test => 1
  | some .lock => 5 + weight members s.counts
  | some .handleResult => 4 + weight members s.counts
  | some (.release pending) => 2 + pending.length + weight members s.counts
  | some .returned | none => 0

theorem workerRank_le {s : State} (hs : Releases s) : workerRank s ≤ 9 := by
  have hweight : weight members s.counts ≤ 4 := by
    refine Nat.le_trans sumLive_le ?_
    decide
  unfold workerRank
  split
  case h_4 pending hworker =>
    have hpending : pending.length ≤ 2 := by
      have hmem := hs pending hworker
      simp only [List.mem_cons, List.not_mem_nil, or_false] at hmem
      rcases hmem with rfl | rfl | rfl | rfl <;> simp
    omega
  all_goals omega

theorem workerRank_consumer {s s' : State} {processes : Bool} (hs : Inv s)
    (hrunning : s.running_ = false) (h : consumerThread s processes = some s') :
    1 + workerRank s' ≤ workerRank s := by
  unfold consumerThread at h
  split at h
  case h_1 | h_2 => cases h
  case h_3 hworker =>
    -- the flag is cleared, so the test ends the loop
    cases h
    simp [workerRank, hworker, hrunning]
  case h_4 hworker =>
    split at h
    · rename_i hlive
      cases h
      have hweight : weight members (copy .service s.counts) = weight members s.counts :=
        weight_copy hlive
      simp only [workerRank, hworker, hweight]
      omega
    · cases h
      simp only [workerRank, hworker]
      omega
  case h_5 hworker =>
    cases h
    simp only [workerRank, hworker, List.length_singleton]
    omega
  case h_6 hworker =>
    cases h
    simp only [workerRank, hworker]
    omega
  case h_7 o rest hworker =>
    have ho : 0 < s.counts o := by
      refine hs.owned.counted.live_of_holder ?_
      simp [State.holders, hworker, workerHolds]
    have hdrop : (drop members o s.counts).1.length +
        weight members (drop members o s.counts).2 = weight members s.counts := weight_drop ho
    cases h
    simp only [workerRank, hworker, List.length_append, List.length_cons]
    omega

/-- What the main thread alone changes. -/
theorem other_frame {s s' : State} {a : Action} (h : step s a = some s') (ha : a.isMain = false) :
    s'.running_ = s.running_ ∧
      (a.isConsumer = false → s'.worker = s.worker ∧ s'.counts = s.counts) := by
  rcases step_cases h with ⟨ok, rfl, _⟩ | ⟨rfl, rfl⟩ | ⟨processes, rfl, hconsumer⟩ | ⟨_, calls, rfl⟩
  · cases ha
  · rcases handleSignal_frame s with ⟨main, _, hs', _⟩
    rw [hs']
    exact ⟨rfl, fun _ => ⟨rfl, rfl⟩⟩
  · rcases consumer_queue hconsumer with ⟨_, _, _, _, hrunning, _⟩
    exact ⟨hrunning, fun hnot => by cases hnot⟩
  · exact ⟨rfl, fun _ => ⟨rfl, rfl⟩⟩

/-- The thread that is joined ends after a few steps, whatever else happens meanwhile. -/
theorem consumers_le {s t : State} {cs : List Action} (hs : Inv s) (hreleases : Releases s)
    (hjoining : s.joining = true) (hcs : ∀ c ∈ cs, c.isMain = false) (h : run step s cs = some t) :
    cs.countP Action.isConsumer ≤ 9 := by
  -- nobody but the main thread sets the flag or takes the thread away
  have hcount : cs.countP Action.isConsumer + workerRank t ≤ workerRank s := by
    refine run_countP_le (I := fun s => Inv s ∧ s.running_ = false) workerRank Action.isConsumer
      (fun s a s' ha hinv hstep => ?_) ⟨hs, (hs.control.joining hjoining).1⟩ hcs h
    rcases hinv with ⟨hinv, hrunning⟩
    rcases other_frame hstep ha with ⟨hkept, hothers⟩
    refine ⟨⟨inv_step hinv hstep, hkept.trans hrunning⟩, ?_⟩
    cases hconsumer : a.isConsumer with
    | false =>
      rcases hothers hconsumer with ⟨hworker, hcounts⟩
      simp [workerRank, hworker, hcounts]
    | true =>
      cases a with
      | consumer processes =>
        exact workerRank_consumer hinv hrunning (Option.ite_none_left_eq_some.1 hstep).2
      | _ => cases hconsumer
  have hbound := workerRank_le hreleases
  omega

/-! ## The end -/

theorem consumer_live {s : State} (processes : Bool) (hthread : s.worker ≠ none)
    (hreturned : s.worker ≠ some .returned) : (consumerThread s processes).isSome := by
  unfold consumerThread
  split
  case h_1 hworker => exact absurd hworker hthread
  case h_2 hworker => exact absurd hworker hreturned
  case h_4 => split <;> rfl
  all_goals rfl

theorem main_live {s : State} (ok : Bool) (hjoining : s.joining = false)
    (hcrashed : s.main.pc ≠ .crashed)
    (hwaiting : s.main.pc = .waiting → s.main.shutdownCalled = true ∧ s.calls = 0) :
    (mainThread s ok).isSome := by
  have hadvance : s.main.pc.ended = false → (s.advance ok).isSome := by
    intro hended
    rw [State.advance, Option.isSome_map]
    unfold Server.main
    grind [Pc.ended]
  unfold mainThread
  rw [hjoining, if_neg Bool.false_ne_true]
  split
  case h_1 | h_2 =>
    rename_i hpc
    rw [Option.isSome_map]
    exact hadvance (by simp [hpc, Pc.ended])
  case h_3 hpc =>
    rw [if_pos (hwaiting hpc).2]
    exact hadvance (by simp [hpc, Pc.ended])
  case h_4 hpc =>
    split
    · rfl
    · exact hadvance (by simp [hpc, Pc.ended])
  case h_5 hpc =>
    split
    · rfl
    · rw [Option.isSome_map]
      exact hadvance (by simp [hpc, Pc.ended])
  case h_6 => rfl
  case h_7 _ _ _ _ _ hreturned =>
    refine hadvance ?_
    unfold Pc.ended
    split
    · rename_i code hpc
      exact absurd hpc (hreturned code)
    · rename_i hpc
      exact absurd hpc hcrashed
    · rfl

/-- A signal came after the publication of the server. -/
abbrev Signalled (as : List Action) : Prop :=
  Taken step init as .signal (fun s => s.main.global_server_ptr = true)

theorem shutdownCalled_main {s t : Server.State} {ok : Bool} (h : Server.main s ok = some t) :
    t.shutdownCalled = s.shutdownCalled := by
  unfold Server.main at h
  grind

/-- `Shutdown` is called by a signal that finds the server published, unless this ends the process. -/
theorem shutdownCalled_step {s s' : State} {a : Action} (h : step s a = some s')
    (hover : s'.over = false) : s'.main.shutdownCalled = true ↔
      s.main.shutdownCalled = true ∨ a = .signal ∧ s.main.global_server_ptr = true := by
  have hunchanged : a ≠ .signal → s'.main.shutdownCalled = s.main.shutdownCalled →
      (s'.main.shutdownCalled = true ↔
        s.main.shutdownCalled = true ∨ a = .signal ∧ s.main.global_server_ptr = true) := by
    intro ha hsame
    simp [ha, hsame]
  rcases step_cases h with ⟨ok, rfl, hmain⟩ | ⟨rfl, rfl⟩ | ⟨processes, rfl, hconsumer⟩ |
    ⟨hcall, calls, rfl⟩
  · refine hunchanged (by simp) ?_
    rcases hmain.main with hsame | hserver
    · rw [hsame]
    · exact shutdownCalled_main hserver
  · -- `Stop` on a destroyed server, or without a `server_`, has ended the process
    simp only [State.over, Bool.or_eq_false_iff, decide_eq_false_iff_not] at hover
    unfold State.handleSignal signalHandler stop at hover ⊢
    grind
  · refine hunchanged (by simp) ?_
    rw [(consumer_frame hconsumer).1]
  · refine hunchanged ?_ rfl
    rcases hcall with rfl | rfl <;> simp

theorem over_of_step {s s' : State} {a : Action} (h : step s a = some s') : s.over = false := by
  simpa using (Option.ite_none_left_eq_some.1 h).1

theorem shutdownCalled_iff {as : List Action} {s : State} (h : run step init as = some s)
    (hover : s.over = false) : s.main.shutdownCalled = true ↔ Signalled as := by
  refine run_history
    (J := fun as s => s.over = false → (s.main.shutdownCalled = true ↔ Signalled as)) ?_ ?_ h hover
  · simp [init, Server.init, not_taken_nil]
  · intro as s a s' hrun hJ hstep hnext
    rw [shutdownCalled_step hstep hnext, hJ (over_of_step hstep)]
    exact (taken_concat_iff hrun).symm

/-- The main thread can go on, or it is in `Wait`, or it joins a thread that can go on. -/
theorem progress {s : State} (hover : s.over = false) :
    (∀ ok, (step s (.main ok)).isSome) ∨
      (s.main.pc = .waiting ∧ (s.main.shutdownCalled = false ∨ 0 < s.calls)) ∨
      (s.joining = true ∧ ∀ processes, (step s (.consumer processes)).isSome) := by
  have hcrashed : s.main.pc ≠ .crashed := by
    simp [State.over] at hover
    exact hover.2
  simp only [step, hover, Bool.false_eq_true, if_false]
  cases hjoining : s.joining with
  | true =>
    by_cases hdone : s.worker = none ∨ s.worker = some .returned
    · left
      intro ok
      rcases hdone with hworker | hworker <;> simp [mainThread, hjoining, hworker]
    · rw [not_or] at hdone
      exact Or.inr (Or.inr ⟨rfl, fun processes => consumer_live processes hdone.1 hdone.2⟩)
  | false =>
    by_cases hblocked : s.main.pc = .waiting ∧ (s.main.shutdownCalled = false ∨ 0 < s.calls)
    · exact Or.inr (Or.inl hblocked)
    · left
      intro ok
      refine main_live ok hjoining hcrashed ?_
      intro hpc
      grind

/-- The main thread takes at most 37 steps, and it waits for nothing but a signal after the publication
of the server, the calls that are being handled, and a thread that takes at most nine more. -/
theorem process_ends {as : List Action} {s : State} (h : run step init as = some s) :
    as.countP Action.isMain ≤ 37 ∧
      (s.over = false →
        (∀ ok, (step s (.main ok)).isSome) ∨
        (s.main.pc = .waiting ∧ (¬ Signalled as ∨ 0 < s.calls)) ∨
        (s.joining = true ∧ ∀ processes, (step s (.consumer processes)).isSome)) ∧
      (s.joining = true → ∀ cs t, (∀ c ∈ cs, c.isMain = false) → run step s cs = some t →
        cs.countP Action.isConsumer ≤ 9) := by
  refine ⟨?_, ?_, ?_⟩
  · have hcount := mains_le h
    omega
  · intro hover
    rw [← shutdownCalled_iff h hover, Bool.not_eq_true]
    exact progress hover
  · intro hjoining cs t hcs hrun
    exact consumers_le (inv_run h) (releases_run h) hjoining hcs hrun

/-- The run takes every one of the 37 steps. -/
theorem process_ends_servedRun :
    ∃ s, run step init servedRun = some s ∧ servedRun.countP Action.isMain ≤ 37 ∧
      37 ≤ servedRun.countP Action.isMain := by
  have hend : (run step init servedRun).isSome = true := by
    decide +kernel
  rcases Option.isSome_iff_exists.1 hend with ⟨s, hrun⟩
  exact ⟨s, hrun, (process_ends hrun).1, by decide⟩

end Process
end ModerationService
