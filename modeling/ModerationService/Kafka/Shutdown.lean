import ModerationService.Kafka.LifecycleSafety

/-!
# Shutdown — calls of a Kafka client return, and its health

A call of the client executes a bounded number of statements (`rank`), and the only one that ever
waits is the `join` in `KafkaConsumer::Stop`.  The loop it waits for has its flag cleared, and makes at
most three more steps: the rest of `consume`, one message, and the test of the flag.
-/

namespace ModerationService
namespace Kafka
namespace Lifecycle

open Library Machine

/-! ## The statements of a call -/

/-- The statements that may follow a return from `Stop`. -/
def afterStopRank : Caller → Nat
  | .stopConsumer => 0
  | .shutdown => 8
  | .reset => 3
  | .replace => 2

/-- No more statements than this are executed before the call returns. -/
def Pc.rank : Pc → Nat
  | .idle => 0
  | .initializeClient => 8
  | .createProducer => 7
  | .createConsumer => 6
  | .setInitialized => 1
  | .startConsumer => 4
  | .start _ => 3
  | .storeTrue _ => 2
  | .startThread _ => 1
  | .stopConsumer caller => afterStopRank caller + 4
  | .stop _ caller => afterStopRank caller + 3
  | .storeFalse _ caller => afterStopRank caller + 2
  | .join _ caller => afterStopRank caller + 1
  | .destroy _ caller => if caller = .replace then 2 else 3
  | .flushProducer => 8
  | .resetConsumer => 7
  | .resetProducer => 2
  | .clearInitialized => 1
  | .useProducer => 2
  | .callProducer => 1

theorem rank_afterStop (id : ConsumerId) (caller : Caller) :
    (afterStop id caller).rank = afterStopRank caller := by
  cases caller <;> rfl

theorem rank_afterGuard (caller : Caller) : (afterGuard caller).rank ≤ afterStopRank caller := by
  cases caller <;> decide

theorem rank_afterDestroy (caller : Caller) :
    (afterDestroy caller).rank = if caller = .replace then 1 else 2 := by
  cases caller <;> rfl

theorem rank_advance {s s' : State} {ok : Bool} (h : advance s ok = some s') :
    s'.pc.rank + 1 ≤ s.pc.rank := by
  unfold advance at h
  -- where a statement leads to depends on the caller, whose rank is counted in
  split at h <;> grind [Pc.rank, afterStopRank, rank_afterStop, rank_afterGuard, rank_afterDestroy,
    Option.map_eq_some_iff, Option.bind_eq_some_iff]

/-! ## The loop that `join` waits for -/

/-- No more steps than this are made by a loop whose flag is cleared. -/
def LoopPc.rank : LoopPc → Nat
  | .consume => 3
  | .process => 2
  | .test => 1
  | .returned => 0

/-- The calling thread waits in `join` for the loop, whose flag is cleared. -/
inductive Joining : LoopPc → State → Prop where
  | mk {p id loopPc fresh caller} (h : caller.direct) :
      Joining loopPc (present true (some id) p id false true (some loopPc) fresh (.join id caller))

theorem Shape.joining {s : State} (hs : Shape s) {id : ConsumerId} {caller : Caller}
    (hpc : s.pc = .join id caller) : ∃ loopPc, Joining loopPc s := by
  cases hs with
  | join hdirect =>
    exact ⟨_, .mk hdirect⟩
  | absent habsent =>
    cases habsent <;> simp at hpc
  | settled hsettled hworker =>
    cases hsettled <;> simp at hpc
  | _ => simp at hpc

/-- The flag is cleared, so each step brings the loop nearer to its end. -/
theorem Joining.loop {s s' : State} {loopPc : LoopPc} (hs : Joining loopPc s) {id : ConsumerId}
    {answer : Bool} (h : loopStep s id answer = some s') :
    ∃ next, Joining next s' ∧ next.rank + 1 ≤ loopPc.rank := by
  cases hs with
  | @mk p i _ fresh caller hdirect =>
    by_cases hid : id = i
    · subst hid
      have hnext : ∀ next, s' = present true (some id) p id false true (some next) fresh
          (.join id caller) → Joining next s' :=
        fun _ hs' => hs' ▸ .mk hdirect
      cases loopPc with
      | test => exact ⟨.returned, hnext _ (by simpa [loopStep] using h.symm), by decide⟩
      | consume =>
        cases answer with
        | false => exact ⟨.test, hnext _ (by simpa [loopStep] using h.symm), by decide⟩
        | true => exact ⟨.process, hnext _ (by simpa [loopStep] using h.symm), by decide⟩
      | process => exact ⟨.test, hnext _ (by simpa [loopStep] using h.symm), by decide⟩
      | returned => simp [loopStep] at h
    · -- no other consumer has a thread
      simp [loopStep, Function.update_of_ne hid] at h

/-! ## Calls return -/

def Action.isAdvance : Action → Bool
  | .advance _ => true
  | .call _ | .loop _ _ => false

def Action.isLoop : Action → Bool
  | .loop _ _ => true
  | .call _ | .advance _ => false

/-- The statement can be executed, or it is a `join` and the loop can make a step. -/
theorem Shape.progress {s : State} (hs : Shape s) (hpc : s.pc ≠ .idle) :
    (∀ ok, (advance s ok).isSome) ∨
      ∃ id caller, s.pc = .join id caller ∧ ∀ answer, (loopStep s id answer).isSome := by
  cases hs with
  | absent habsent =>
    left
    intro ok
    cases habsent with
    | idle => exact (hpc rfl).elim
    | _ => cases ok <;> simp [advance]
  | settled hsettled hworker =>
    left
    intro ok
    cases hsettled with
    | idle => exact (hpc rfl).elim
    | _ => simp [advance]
  | @join p id loopPc fresh caller hdirect =>
    -- `join` is the only statement that may have to wait
    cases loopPc with
    | returned => exact Or.inl (by simp [advance])
    | test | consume | process => exact Or.inr ⟨id, caller, rfl, by simp [loopStep]⟩
  | createConsumer =>
    left
    intro ok
    cases ok <;> simp [advance]
  | _ => exact Or.inl (by simp [advance])

/-- Without a new call, the statements executed are bounded. -/
theorem advances_le {s t : State} {bs : List Action} (hbs : ∀ a ∈ bs, ∀ c, a ≠ .call c)
    (h : run step s bs = some t) : bs.countP Action.isAdvance + t.pc.rank ≤ s.pc.rank := by
  refine run_countP_le (I := fun _ => True) (fun s => s.pc.rank) Action.isAdvance ?_ trivial hbs h
  intro s a s' ha _ hstep
  refine ⟨trivial, ?_⟩
  cases a with
  | call c => exact (ha c rfl).elim
  | advance ok =>
    have hrank := rank_advance hstep
    simp only [Action.isAdvance, if_true]
    omega
  | loop id answer =>
    -- a step of the loop leaves the calling thread where it is
    have hsame : s'.pc = s.pc := loopStep_pc hstep
    simp [Action.isAdvance, hsame]

theorem loops_le {s t : State} {loopPc : LoopPc} (hs : Joining loopPc s) {bs : List Action}
    (hbs : ∀ a ∈ bs, a.isLoop = true) (h : run step s bs = some t) : bs.length ≤ loopPc.rank := by
  induction bs generalizing s loopPc with
  | nil => exact Nat.zero_le _
  | cons a bs ih =>
    rcases run_cons_eq_some.1 h with ⟨u, hfirst, hrest⟩
    cases a with
    | loop id answer =>
      -- the calling thread still waits, for a loop that is nearer to its end
      rcases hs.loop hfirst with ⟨next, hnext, hless⟩
      have hle := ih hnext (fun b hb => hbs b (List.mem_cons_of_mem _ hb)) hrest
      exact Nat.le_trans (Nat.succ_le_succ hle) hless
    | call c => exact absurd (hbs _ List.mem_cons_self) (by simp [Action.isLoop])
    | advance ok => exact absurd (hbs _ List.mem_cons_self) (by simp [Action.isLoop])

theorem rank_le (pc : Pc) : pc.rank ≤ 12 := by
  cases pc with
  | stopConsumer caller => cases caller <;> decide
  | stop id caller => cases caller <;> simp [Pc.rank, afterStopRank]
  | storeFalse id caller => cases caller <;> simp [Pc.rank, afterStopRank]
  | join id caller => cases caller <;> simp [Pc.rank, afterStopRank]
  | destroy id caller => cases caller <;> simp [Pc.rank]
  | _ => simp [Pc.rank]

/-- Whatever the schedule, a call in progress is never stuck: its next statement can be executed, or
it is a `join` and the loop can make a step.  It executes at most twelve more statements, and while
it waits in `join`, the loop makes at most three more steps. -/
theorem calls_return {as : List Action} {s : State} (h : run step init as = some s) :
    (s.pc ≠ .idle → (∀ ok, (step s (.advance ok)).isSome) ∨
      ∃ id caller, s.pc = .join id caller ∧ ∀ answer, (step s (.loop id answer)).isSome) ∧
    (∀ bs t, (∀ a ∈ bs, ∀ c, a ≠ .call c) → run step s bs = some t →
      bs.countP Action.isAdvance ≤ 12) ∧
    (∀ id caller bs t, s.pc = .join id caller → (∀ a ∈ bs, a.isLoop = true) →
      run step s bs = some t → bs.length ≤ 3) := by
  have hs : Shape s := shape_run shape_init h
  refine ⟨hs.progress, ?_, ?_⟩
  · intro bs t hbs hrun
    have hbound := advances_le hbs hrun
    have hrank := rank_le s.pc
    omega
  · intro id caller bs t hpc hbs hrun
    rcases hs.joining hpc with ⟨loopPc, hjoining⟩
    have hlength := loops_le hjoining hbs hrun
    have hrank : loopPc.rank ≤ 3 := by
      cases loopPc <;> decide
    exact Nat.le_trans hlength hrank

/-- `Shutdown` during a message: `join` waits until the loop has returned. -/
theorem calls_return_startup :
    ∃ s, run step init (startup ++ [.call .shutdown, .advance true, .advance true, .advance true]) =
        some s ∧ s.pc = .join 1 .shutdown ∧
      ∃ id caller, s.pc = .join id caller ∧ ∀ answer, (step s (.loop id answer)).isSome := by
  have hjoin : (run step init (startup ++ [.call .shutdown, .advance true, .advance true,
      .advance true])).map (fun s => (s.pc, (step s (.advance true)).isSome)) =
        some (.join 1 .shutdown, false) := by
    decide
  rcases Option.map_eq_some_iff.1 hjoin with ⟨s, h, hpc⟩
  rcases Prod.mk.inj hpc with ⟨hpc, hwaits⟩
  refine ⟨s, h, hpc, ?_⟩
  rcases (calls_return h).1 (by simp [hpc]) with hadvances | hloop
  · simp [hadvances true] at hwaits
  · exact hloop

/-! ## Health -/

/-- `KafkaClient::isHealthy`.  A producer that exists is healthy: its constructor throws without an
`RdKafka::Producer`. -/
def State.isHealthy (s : State) : Bool :=
  if !s.initialized_ then
    false
  else
    let producerHealthy := s.producer_.isSome
    let consumerHealthy := match s.consumer_.bind s.consumers with
      | some consumer_ => consumer_.running_
      | none => false
    producerHealthy && consumerHealthy

/-- The constructor of the `std::thread` throws: `Start` has set the flag already, and the exception
leaves `StartConsumer`. -/
def threadFails (s : State) : Option State :=
  match s.pc with
  | .startThread _ => some { s with pc := .idle }
  | _ => none

/-- The flag is set, and there is no thread. -/
theorem Shape.healthy_without_thread {s s' : State} (hs : Shape s) (h : threadFails s = some s') :
    s'.isHealthy = true ∧ ∀ id, ¬ s'.live id := by
  cases hs with
  | @startThread p id fresh =>
    cases h
    refine ⟨by simp [State.isHealthy], ?_⟩
    rintro i ⟨loopPc, hthread, _⟩
    by_cases hid : i = id
    · subst hid
      simp at hthread
    · simp [Function.update_of_ne hid] at hthread
  | absent habsent =>
    cases habsent <;> simp [threadFails] at h
  | settled hsettled hworker =>
    cases hsettled <;> simp [threadFails] at h
  | _ => simp [threadFails] at h

theorem Shape.healthy_iff_live {s : State} (hs : Shape s) (hidle : s.pc = .idle) :
    s.isHealthy = true ↔
      ∃ id c p, s.consumer_ = some id ∧ s.consumers id = some c ∧ s.live id ∧
        c.producer_ = some p ∧ s.producer_ = some p ∧ s.producers p = true := by
  have hsafe := hs.safe
  have htransitional : s.pc.transitional = false := by
    rw [hidle]
    rfl
  constructor
  · intro hhealthy
    cases hobject : s.consumer_.bind s.consumers with
    | none => simp [State.isHealthy, hobject] at hhealthy
    | some c =>
      have hrunning : c.running_ = true := by
        simp only [State.isHealthy, hobject] at hhealthy
        split_ifs at hhealthy
        exact (Bool.and_eq_true_iff.1 hhealthy).2
      rcases Option.bind_eq_some_iff.1 hobject with ⟨id, hconsumer, hc⟩
      rcases hsafe.producer id c hc with ⟨p, hpointer, howned, hexists⟩
      exact ⟨id, c, p, hconsumer, hc, (hsafe.live hidle id c hc).1 hrunning, hpointer, howned,
        hexists⟩
  · rintro ⟨id, c, p, hconsumer, hobject, hlive, _, hproducer, _⟩
    have hinitialized := (hsafe.initialized htransitional).2 ⟨id, hconsumer, by simp [hobject]⟩
    have hrunning := (hsafe.live hidle id c hobject).2 hlive
    simp [State.isHealthy, hinitialized, hconsumer, hobject, hproducer, hrunning]

/-- As long as threads can be created, the client is healthy between calls exactly when the loop of
its consumer is live, and then it has a producer that exists.  Where a thread cannot be created, the
client is healthy without one. -/
theorem isHealthy_iff {as : List Action} {s : State} (h : run step init as = some s) :
    (s.pc = .idle → (s.isHealthy = true ↔
      ∃ id c p, s.consumer_ = some id ∧ s.consumers id = some c ∧ s.live id ∧
        c.producer_ = some p ∧ s.producer_ = some p ∧ s.producers p = true)) ∧
    ∀ s', threadFails s = some s' → s'.isHealthy = true ∧ ∀ id, ¬ s'.live id := by
  have hs : Shape s := shape_run shape_init h
  exact ⟨fun hidle => hs.healthy_iff_live hidle, fun s' hfails => hs.healthy_without_thread hfails⟩

theorem isHealthy_iff_startup :
    (∃ s, run step init startup = some s ∧ s.isHealthy = true ∧ ∃ id, s.live id) ∧
    ∃ s s', run step init (startup.take 9) = some s ∧ threadFails s = some s' ∧
      s'.isHealthy = true ∧ ∀ id, ¬ s'.live id := by
  refine ⟨?_, ?_⟩
  · have hstarted : (run step init startup).map (fun s => (s.pc, s.isHealthy)) =
        some (.idle, true) := by
      decide
    rcases Option.map_eq_some_iff.1 hstarted with ⟨s, h, hpair⟩
    rcases Prod.mk.inj hpair with ⟨hidle, hhealthy⟩
    rcases ((isHealthy_iff h).1 hidle).1 hhealthy with ⟨id, _, _, _, _, hlive, _⟩
    exact ⟨s, h, hhealthy, id, hlive⟩
  · have hstarting : (run step init (startup.take 9)).map (fun s => s.pc) =
        some (.startThread 1) := by
      decide
    rcases Option.map_eq_some_iff.1 hstarting with ⟨s, h, hpc⟩
    have hfails : threadFails s = some { s with pc := .idle } := by
      simp only [threadFails, hpc]
    exact ⟨s, _, h, hfails, (isHealthy_iff h).2 _ hfails⟩

end Lifecycle
end Kafka
end ModerationService
